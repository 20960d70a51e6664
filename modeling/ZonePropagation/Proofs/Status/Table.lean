import Mathlib
import ZonePropagation.Proofs.Nameserver.TextForm
import ZonePropagation.Proofs.Octets.Placement
import ZonePropagation.Proofs.Status.Expiry
import ZonePropagation.Proofs.Zone.Words
import ZonePropagation.Settings.Topology
import ZonePropagation.Status.Table
/-!
Rows that are kept in a database table.

The table keeps the key of a nameserver and reads the nameserver from it again.  So the rows that
are read of a zone's action are those that the process would keep, when all their nameservers are
legible: a key that cannot be read fails all rows, and one that is read as another nameserver gives
a row that nobody wrote.
-/

namespace ZonePropagation

namespace Status

/-! ### Lines of the table -/

namespace TableRow

theorem isFor_ofRecord_iff (row : StatusRecord) (key : ActionKey) :
    (ofRecord row).isFor key.zoneId key.action = true ↔ row.key = key := by
  rw [← StatusRecord.isFor_iff]
  simp [isFor, ofRecord, StatusRecord.isFor, ZoneAction.text_injective.eq_iff]

theorem sameKey_ofRecord_iff (left right : StatusRecord) :
    (ofRecord left).sameKey (ofRecord right) = true ↔ left.place = right.place := by
  rw [← StatusRecord.sameKey_iff]
  simp [sameKey, ofRecord, StatusRecord.sameKey, StatusRecord.isFor,
    ZoneAction.text_injective.eq_iff, Nameserver.key_injective.eq_iff]

def readAs (row : StatusRecord) (server : Nameserver) : StatusRecord :=
  { row with nameserver := server, updatedAt := timeOf row.updatedAt.toMillis }

theorem read_serial (serial : Option UInt32) :
    (serial.map fun serial => (serial.toNat : Int)).map
      (fun serial => (serial % 4294967296).toNat.toUInt32) = serial := by
  cases serial with
  | none => rfl
  | some serial => exact congrArg some (low_toNat serial)

theorem toRecord_ofRecord (row : StatusRecord) :
    (ofRecord row).toRecord = match Nameserver.ofText? row.nameserver.key with
      | some server => .ok (readAs row server)
      | none =>
          .error (.statusStore ("invalid nameserver in status row: " ++ row.nameserver.key)) := by
  unfold toRecord
  simp only [ofRecord, ZoneAction.ofText_text, Status.ofText_text, wordOf, Except.mapError,
    read_serial]
  cases Nameserver.ofText? row.nameserver.key with
  | none => rfl
  | some server => rfl

theorem toRecord_ofRecord_eq_ok_iff (row record : StatusRecord) :
    (ofRecord row).toRecord = .ok record ↔
      ∃ server, Nameserver.ofText? row.nameserver.key = some server ∧
        record = readAs row server := by
  rw [toRecord_ofRecord]
  cases Nameserver.ofText? row.nameserver.key with
  | none => simp
  | some server => simp [eq_comm]

theorem toRecord_ofRecord_isError_iff (row : StatusRecord) :
    (∃ fault, (ofRecord row).toRecord = .error fault) ↔
      Nameserver.ofText? row.nameserver.key = none := by
  rw [toRecord_ofRecord]
  cases Nameserver.ofText? row.nameserver.key with
  | none => simp
  | some server => simp

end TableRow

namespace Table

/-! ### The lines that stand -/

def change (table : Table) : Change → Except Fault Table
  | .store row => table.store row
  | .clear key => table.clear key.zoneId key.action

def applied (changes : List Change) : Except Fault Table := changes.foldlM change {}

structure Kept (changes : List Change) (table : Table) : Prop where
  opened : table.closed = false
  mem_rows_iff : ∀ line, line ∈ table.rows ↔
    ∃ row, Standing some changes row ∧ line = TableRow.ofRecord row

theorem kept_new : Kept [] {} where
  opened := rfl
  mem_rows_iff := by
    intro line
    simp [not_standing_nil]

variable {changes : List Change} {table : Table}

theorem Kept.guard (kept : Kept changes table) : table.guard = .ok () := by
  unfold Table.guard
  rw [kept.opened]
  rfl

theorem Kept.store (kept : Kept changes table) (row : StatusRecord) :
    Kept (changes ++ [.store row])
      { table with rows := upsert table.rows (TableRow.ofRecord row) } where
  opened := kept.opened
  mem_rows_iff := by
    intro line
    simp only [upsert, List.mem_append, List.mem_filter, List.mem_singleton, kept.mem_rows_iff,
      Bool.not_eq_true', Bool.eq_false_iff, standing_append_iff, Option.mem_some_iff,
      Option.some_inj, Change.store.injEq]
    constructor
    · rintro (⟨⟨other, stands, rfl⟩, apart⟩ | rfl)
      · refine ⟨other, .inr ⟨stands, ?_⟩, rfl⟩
        rintro _ rfl same
        exact apart ((TableRow.sameKey_ofRecord_iff _ _).mpr same.symm)
      · exact ⟨row, .inl rfl, rfl⟩
    · rintro ⟨other, rfl | ⟨stands, spared⟩, rfl⟩
      · exact .inr rfl
      · refine .inl ⟨⟨other, stands, rfl⟩, fun same => ?_⟩
        exact spared _ rfl ((TableRow.sameKey_ofRecord_iff _ _).mp same).symm

theorem Kept.clear (kept : Kept changes table) (key : ActionKey) :
    Kept (changes ++ [.clear key])
      { table with rows := table.rows.filter fun line => !line.isFor key.zoneId key.action } where
  opened := kept.opened
  mem_rows_iff := by
    intro line
    simp only [List.mem_filter, kept.mem_rows_iff, Bool.not_eq_true', Bool.eq_false_iff,
      standing_append_iff, Option.mem_some_iff, Option.some_inj, reduceCtorEq, false_or]
    constructor
    · rintro ⟨⟨row, stands, rfl⟩, other⟩
      refine ⟨row, ⟨stands, ?_⟩, rfl⟩
      rintro _ rfl mine
      exact other ((TableRow.isFor_ofRecord_iff row key).mpr mine)
    · rintro ⟨row, ⟨stands, spared⟩, rfl⟩
      refine ⟨⟨row, stands, rfl⟩, fun mine => ?_⟩
      exact spared _ rfl ((TableRow.isFor_ofRecord_iff row key).mp mine)

theorem kept_applied (changes : List Change) :
    ∃ table, applied changes = .ok table ∧ Kept changes table := by
  induction changes using List.reverseRecOn with
  | nil => exact ⟨{}, rfl, kept_new⟩
  | append_singleton changes change ih =>
      obtain ⟨table, made, kept⟩ := ih
      have split : applied (changes ++ [change]) = table.change change := foldlM_concat made change
      cases change with
      | store row =>
          refine ⟨_, ?_, kept.store row⟩
          rw [split, Table.change, store, storeRow, kept.guard]
          rfl
      | clear key =>
          refine ⟨_, ?_, kept.clear key⟩
          rw [split, Table.change, Table.clear, kept.guard]
          rfl

/-! ### What is read -/

theorem Kept.mem_rowsFor_iff (kept : Kept changes table) (key : ActionKey) (line : TableRow) :
    line ∈ table.rowsFor key.zoneId key.action ↔
      ∃ row, (row.key = key ∧ Standing some changes row) ∧ line = TableRow.ofRecord row := by
  rw [rowsFor, List.mem_mergeSort, List.mem_filter, kept.mem_rows_iff]
  constructor
  · rintro ⟨⟨row, stands, rfl⟩, mine⟩
    exact ⟨row, ⟨(TableRow.isFor_ofRecord_iff _ _).mp mine, stands⟩, rfl⟩
  · rintro ⟨row, ⟨mine, stands⟩, rfl⟩
    exact ⟨⟨row, stands, rfl⟩, (TableRow.isFor_ofRecord_iff _ _).mpr mine⟩

theorem Kept.retrieve_eq (kept : Kept changes table) (key : ActionKey) :
    table.retrieve key.zoneId key.action =
      (table.rowsFor key.zoneId key.action).mapM TableRow.toRecord := by
  rw [retrieve, kept.guard, ok_bind]

theorem Kept.retrieve_isError_iff (kept : Kept changes table) (key : ActionKey) :
    (∃ fault, table.retrieve key.zoneId key.action = .error fault) ↔
      ∃ row, (row.key = key ∧ Standing some changes row) ∧
        Nameserver.ofText? row.nameserver.key = none := by
  rw [kept.retrieve_eq, mapM_isError_iff]
  constructor
  · rintro ⟨line, member, failed⟩
    obtain ⟨row, stands, rfl⟩ := (kept.mem_rowsFor_iff key line).mp member
    exact ⟨row, stands, (TableRow.toRecord_ofRecord_isError_iff row).mp failed⟩
  · rintro ⟨row, stands, failed⟩
    exact ⟨TableRow.ofRecord row, (kept.mem_rowsFor_iff key _).mpr ⟨row, stands, rfl⟩,
      (TableRow.toRecord_ofRecord_isError_iff row).mpr failed⟩

theorem Kept.mem_retrieve_iff (kept : Kept changes table) (key : ActionKey)
    (rows : List StatusRecord) (retrieved : table.retrieve key.zoneId key.action = .ok rows)
    (record : StatusRecord) :
    record ∈ rows ↔ ∃ row, (row.key = key ∧ Standing some changes row) ∧
      ∃ server, Nameserver.ofText? row.nameserver.key = some server ∧
        record = TableRow.readAs row server := by
  rw [kept.retrieve_eq] at retrieved
  rw [mem_of_mapM retrieved]
  constructor
  · rintro ⟨line, member, readLine⟩
    obtain ⟨row, stands, rfl⟩ := (kept.mem_rowsFor_iff key line).mp member
    exact ⟨row, stands, (TableRow.toRecord_ofRecord_eq_ok_iff row record).mp readLine⟩
  · rintro ⟨row, stands, reading⟩
    exact ⟨TableRow.ofRecord row, (kept.mem_rowsFor_iff key _).mpr ⟨row, stands, rfl⟩,
      (TableRow.toRecord_ofRecord_eq_ok_iff row record).mpr reading⟩

/-! ### Agreement with the process -/

/-- When the table shows all rows that were kept, a row whose server is not legible needs another
whose server has a longer host. -/
theorem legible_of_shown {kept rows : List StatusRecord}
    (readings : ∀ record ∈ rows, ∃ row ∈ kept, ∃ server,
      Nameserver.ofText? row.nameserver.key = some server ∧ record = TableRow.readAs row server)
    (shown : ∀ seen ∈ kept.map Memory.shown, seen ∈ rows.map Memory.shown) :
    ∀ row ∈ kept, row.nameserver.Legible := by
  intro row member
  by_contra illegible
  obtain ⟨longest, found, maximal⟩ :=
    (kept.toFinset.filter (¬ ·.nameserver.Legible)).exists_max_image
      (fun row => row.nameserver.host.toList.length)
      ⟨row, Finset.mem_filter.mpr ⟨List.mem_toFinset.mpr member, illegible⟩⟩
  rw [Finset.mem_filter, List.mem_toFinset] at found
  obtain ⟨record, shownHere, same⟩ := List.mem_map.mp (shown _ (List.mem_map_of_mem found.1))
  obtain ⟨origin, kept, server, readServer, rfl⟩ := readings record shownHere
  have sameServer : server = longest.nameserver := congrArg Prod.fst same
  rcases Nameserver.eq_or_shorter_of_ofText?_key readServer with ⟨rfl, legible⟩ | ⟨longer, hidden⟩
  · exact found.2 (sameServer ▸ legible)
  · have bounded := maximal origin (Finset.mem_filter.mpr ⟨List.mem_toFinset.mpr kept, hidden⟩)
    rw [sameServer] at longer
    omega

/-- After any changes, the rows of a key are read of the table unless the key of one of their
nameservers cannot be read.  They show what the process shows, as long as no time passes, exactly
when all these nameservers are legible. -/
theorem agrees_iff_legible {ttl : Nat} (start : Nat) (lasting : 0 < ttl) (changes : List Change)
    (key : ActionKey) :
    ∃ table, applied changes = .ok table ∧
      ((∃ fault, table.retrieve key.zoneId key.action = .error fault) ↔
        ∃ row ∈ (Expiry.after ttl start (changes.map .edit)).rows key,
          Nameserver.ofText? row.nameserver.key = none) ∧
      ((∃ rows, table.retrieve key.zoneId key.action = .ok rows ∧
          ∀ seen, seen ∈ rows.map Memory.shown ↔
            seen ∈ ((Expiry.after ttl start (changes.map .edit)).rows key).map Memory.shown) ↔
        ∀ row ∈ (Expiry.after ttl start (changes.map .edit)).rows key, row.nameserver.Legible) := by
  obtain ⟨table, made, kept⟩ := kept_applied changes
  have stands := Expiry.mem_rows_edits_iff start lasting changes key
  have fails := kept.retrieve_isError_iff key
  have readings := kept.mem_retrieve_iff key
  simp only [← stands] at fails readings
  refine ⟨table, made, fails, ?_, ?_⟩
  · rintro ⟨rows, retrieved, same⟩
    exact legible_of_shown (fun record member => (readings rows retrieved record).mp member)
      fun seen member => (same seen).mpr member
  · intro legible
    have readable : ∀ row ∈ (Expiry.after ttl start (changes.map .edit)).rows key,
        Nameserver.ofText? row.nameserver.key = some row.nameserver := fun row member =>
      (Nameserver.ofText?_key_eq_some_self_iff _).mpr (legible row member)
    cases retrieved : table.retrieve key.zoneId key.action with
    | error fault =>
        obtain ⟨row, member, unreadable⟩ := fails.mp ⟨fault, retrieved⟩
        rw [readable row member] at unreadable
        cases unreadable
    | ok rows =>
        refine ⟨rows, rfl, fun seen => ?_⟩
        rw [List.mem_map, List.mem_map]
        constructor
        · rintro ⟨record, member, rfl⟩
          obtain ⟨row, kept, server, readServer, rfl⟩ := (readings rows retrieved record).mp member
          rw [readable row kept] at readServer
          cases readServer
          exact ⟨row, kept, rfl⟩
        · rintro ⟨row, member, rfl⟩
          have record := (readings rows retrieved _).mpr ⟨row, member, _, readable row member, rfl⟩
          exact ⟨_, record, rfl⟩

/-- An address with colons and a name, whose rows were written under one key: the table shows the
last row of each, and a row that was cleared with another key is in neither. -/
theorem agrees_iff_legible_address :
    let address : Nameserver := ⟨"2001:db8::1", 53⟩
    let name : Nameserver := ⟨"ns1.test", 5353⟩
    let key : ActionKey := ⟨"z", .update⟩
    let changes : List Change := [.store ⟨"z", .update, address, .pending, none, ⟨0, 0⟩⟩,
      .store ⟨"z", .update, name, .error, none, ⟨1, 0⟩⟩,
      .store ⟨"z", .delete, name, .pending, none, ⟨1, 0⟩⟩,
      .store ⟨"z", .update, address, .success, some 7, ⟨2, 0⟩⟩, .clear ⟨"z", .delete⟩]
    ∃ table rows, applied changes = .ok table ∧ table.retrieve key.zoneId key.action = .ok rows ∧
      ∀ seen, seen ∈ rows.map Memory.shown ↔
        seen ∈ [(name, Status.error, none), (address, Status.success, some 7)] := by
  intro address name key changes
  have kept : ((Expiry.after 60 0 (changes.map .edit)).rows key).map Memory.shown =
      [(name, Status.error, none), (address, Status.success, some 7)] := by decide +kernel
  have legible : ∀ row ∈ (Expiry.after 60 0 (changes.map .edit)).rows key,
      row.nameserver.Legible := by
    intro row member
    have listed := List.mem_map_of_mem (f := Memory.shown) member
    rw [kept, List.mem_pair] at listed
    rcases listed with shown | shown
    · rw [show row.nameserver = name from congrArg Prod.fst shown]
      decide +kernel
    · rw [show row.nameserver = address from congrArg Prod.fst shown]
      decide +kernel
  obtain ⟨table, made, -, agrees⟩ := agrees_iff_legible 0 (by decide : 0 < 60) changes key
  obtain ⟨rows, retrieved, same⟩ := agrees.mpr legible
  rw [kept] at same
  exact ⟨table, rows, made, retrieved, same⟩

def bracketed : PoolSetting where
  id := "default"
  nameservers := [{ host := "[2001:db8::1]" }]

/-- Settings with the pool pass validation, but a row of its nameserver, which the process shows,
fails the table. -/
theorem bracketed_fails :
    ({ pools := [bracketed] } : Settings).validate = .ok () ∧
      ∃ server ∈ bracketed.nameservers.map ServerSetting.nameserver,
        let row : StatusRecord := ⟨"z", .update, server, .success, some 1, ⟨0, 0⟩⟩
        (Expiry.after 60 0 [.edit (.store row)]).rows row.key = [row] ∧
          ∃ table fault, applied [.store row] = .ok table ∧
            table.retrieve row.zoneId row.action = .error fault := by
  refine ⟨rfl, ⟨"[2001:db8::1]", 53⟩, by simp [bracketed, ServerSetting.nameserver], ?_⟩
  intro row
  refine ⟨by decide +kernel, ?_⟩
  obtain ⟨table, made, kept⟩ := kept_applied [.store row]
  have stands : Standing some [.store row] row := ⟨[], [], _, rfl, rfl, by simp⟩
  have unreadable : Nameserver.ofText? row.nameserver.key = none := by
    rw [Nameserver.ofText?_key_of_colon (by decide +kernel), Nameserver.ofBracketed?_port,
      if_pos (by decide +kernel)]
  obtain ⟨fault, failed⟩ :=
    (kept.retrieve_isError_iff row.key).mpr ⟨row, ⟨rfl, stands⟩, unreadable⟩
  exact ⟨table, fault, made, failed⟩

end Table

end Status

end ZonePropagation
