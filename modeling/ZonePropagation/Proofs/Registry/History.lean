import Mathlib
import ZonePropagation.Proofs.Registry.Selection
/-!
Histories of a registry in the process and of one in tables.

Both registries are given the same calls: zones are created, records are added to zones that are
held, and reports arrive for zones that are held.  A row of the tables is the zone of the process
with a tenant and a time of its own.  Every call keeps that so, whichever rows it replaces, amends
or removes; hence both accept all calls and show, but for the times, the same.
-/

namespace ZonePropagation.Registry

/-! ### Calls -/

/-- A change of the registry.  Either registry has a time of its own for a report. -/
inductive Call where
  | create (caller : Caller) (zone : Zone)
  | add (record : StoredRecord)
  | deliver (report : Report) (memoryTime tableTime : Timestamp)

def Memory.take (memory : Memory) : Call → Except Fault Memory
  | .create _ zone => .ok (memory.insertZone zone)
  | .add record => .ok (memory.insertRecord record)
  | .deliver report now _ =>
      (memory.deliver report now).1.map fun _ => (memory.deliver report now).2

def Table.take (table : Table) : Call → Except Fault Table
  | .create caller zone => table.createZone caller zone
  | .add record => table.addRecord record
  | .deliver report _ now => table.deliver report now

/-- A new zone has the name of no other zone; a record and a report are for a zone that is held. -/
def Call.Fits (memory : Memory) : Call → Prop
  | .create _ zone => ∀ held ∈ memory.zones, held.name = zone.name → held.id = zone.id
  | .add record => memory.contains record.zoneId = true
  | .deliver report _ _ => memory.contains report.zoneId = true

instance (memory : Memory) : (call : Call) → Decidable (call.Fits memory)
  | .create _ zone =>
      inferInstanceAs (Decidable (∀ held ∈ memory.zones, held.name = zone.name → held.id = zone.id))
  | .add record => inferInstanceAs (Decidable (memory.contains record.zoneId = true))
  | .deliver report _ _ => inferInstanceAs (Decidable (memory.contains report.zoneId = true))

def Proper (memory : Memory) : List Call → Prop
  | [] => True
  | call :: later => call.Fits memory ∧
      match memory.take call with
      | .ok after => Proper after later
      | .error _ => True

instance decidableProper : (memory : Memory) → (calls : List Call) → Decidable (Proper memory calls)
  | _, [] => inferInstanceAs (Decidable True)
  | memory, call :: later =>
      let _rest : Decidable (match memory.take call with
          | .ok after => Proper after later
          | .error _ => True) :=
        match memory.take call with
        | .ok after => decidableProper after later
        | .error _ => .isTrue trivial
      inferInstanceAs (Decidable (_ ∧ _))

def Memory.after (memory : Memory) (calls : List Call) : Except Fault Memory :=
  calls.foldlM take memory

def Table.after (table : Table) (calls : List Call) : Except Fault Table :=
  calls.foldlM take table

/-! ### Rows of the same zones -/

/-- What the tables keep of the zones beside what the process keeps, by id. -/
structure Marks where
  tenant : String → Option String
  time : String → Timestamp

namespace Marks

variable (marks : Marks)

def row (zone : Zone) : ZoneRow :=
  ZoneRow.ofZone (marks.tenant zone.id) { zone with updatedAt := marks.time zone.id }

def set (id : String) (tenant : Option String) (time : Timestamp) : Marks :=
  ⟨Function.update marks.tenant id tenant, Function.update marks.time id time⟩

theorem row_set_self (zone : Zone) (tenant : Option String) (time : Timestamp) :
    (marks.set zone.id tenant time).row zone =
      ZoneRow.ofZone tenant { zone with updatedAt := time } := by
  simp [row, set]

theorem row_set_ne {zone : Zone} {id : String} (other : zone.id ≠ id) (tenant : Option String)
    (time : Timestamp) : (marks.set id tenant time).row zone = marks.row zone := by
  simp [row, set, other]

end Marks

def RecordRow.ofRecord (record : StoredRecord) : RecordRow :=
  ⟨record.zoneId, record.name, record.type, record.data,
    record.ttl.map fun ttl => (ttl.toNat : Int)⟩

theorem RecordRow.toRecord_ofRecord (record : StoredRecord) :
    (RecordRow.ofRecord record).toRecord = record := by
  obtain ⟨zoneId, name, type, data, ttl⟩ := record
  cases ttl with
  | none => rfl
  | some ttl =>
      unfold ofRecord toRecord
      simp only [Option.map_some]
      rw [low32, low_toNat]

/-- The tables are open and hold a row for every zone and every record of the process, and the
process refuses nothing. -/
structure Mirrors (marks : Marks) (memory : Memory) (table : Table) : Prop where
  opened : table.closed = false
  accepting : memory.refusals = 0
  distinct : (memory.zones.map Zone.id).Nodup
  zones : table.zones = memory.zones.map marks.row
  records : table.records = memory.records.map RecordRow.ofRecord

section Mirrors

variable {marks next : Marks} {memory : Memory} {table : Table} {zone held : Zone}

theorem Mirrors.guard (mirrors : Mirrors marks memory table) : table.guard = .ok () := by
  unfold Table.guard
  rw [mirrors.opened]
  rfl

theorem Mirrors.find? (mirrors : Mirrors marks memory table) (id : String) :
    (table.zones.find? fun row => row.id == id) = (memory.zone? id).map marks.row := by
  rw [mirrors.zones, List.find?_map]
  rfl

theorem Mirrors.contains (mirrors : Mirrors marks memory table) (id : String) :
    table.contains id = memory.contains id := by
  have lists : table.contains id = (table.zones.find? fun row => row.id == id).isSome := by
    rw [Bool.eq_iff_iff, List.find?_isSome, Table.contains, List.any_eq_true]
  rw [lists, mirrors.find?, Option.isSome_map, Memory.contains]

theorem Mirrors.eq_of_id (mirrors : Mirrors marks memory table)
    (found : memory.zone? zone.id = some held) {other : Zone} (member : other ∈ memory.zones)
    (same : other.id = zone.id) : other = held :=
  List.inj_on_of_nodup_map mirrors.distinct member (List.mem_of_find?_eq_some found)
    (same.trans (Memory.zone?_id found).symm)

theorem Memory.insertZone_of_held (found : memory.zone? zone.id = some held) :
    memory.insertZone zone = { memory with
      zones := memory.zones.map fun other => if other.id == zone.id then zone else other } := by
  unfold insertZone
  rw [found, Option.isSome_some, if_pos rfl]

theorem Mirrors.replaced (mirrors : Mirrors marks memory table)
    (found : memory.zone? zone.id = some held) {change : ZoneRow → ZoneRow}
    (changed : change (marks.row held) = next.row zone)
    (kept : ∀ other : Zone, other.id ≠ zone.id → next.row other = marks.row other) :
    Mirrors next (memory.insertZone zone) (table.rewrite zone.id change) := by
  have rows : (table.rewrite zone.id change).zones =
      (memory.insertZone zone).zones.map next.row := by
    rw [Memory.insertZone_of_held found]
    simp only [Table.rewrite, mirrors.zones, List.map_map]
    refine List.map_congr_left fun other member => ?_
    have rowId : (marks.row other).id = other.id := rfl
    by_cases same : other.id = zone.id
    · simp only [Function.comp, rowId, same, beq_self_eq_true, if_true]
      rw [mirrors.eq_of_id found member same]
      exact changed
    · simp only [Function.comp, rowId, beq_iff_eq, same, if_false]
      exact (kept other same).symm
  constructor
  · exact mirrors.opened
  · rw [Memory.insertZone_of_held found]
    exact mirrors.accepting
  · exact Memory.ids_insertZone memory zone mirrors.distinct
  · exact rows
  · rw [Memory.insertZone_of_held found]
    exact mirrors.records

/-! ### The calls, one by one -/

theorem Mirrors.create (mirrors : Mirrors marks memory table) (caller : Caller)
    (free : ∀ held ∈ memory.zones, held.name = zone.name → held.id = zone.id) :
    ∃ next after, table.createZone caller zone = .ok after ∧
      Mirrors next (memory.insertZone zone) after := by
  have accepted : ∀ row ∈ table.zones, row.name = (ZoneRow.ofZone caller.tenant? zone).name →
      row.id = (ZoneRow.ofZone caller.tenant? zone).id := by
    rw [mirrors.zones, List.forall_mem_map]
    exact free
  have created := Table.putRow_eq_ok_iff.mpr ⟨⟨mirrors.opened, accepted⟩, rfl⟩
  have sameId : (ZoneRow.ofZone caller.tenant? zone).id = zone.id := rfl
  rw [sameId, mirrors.contains] at created
  cases found : memory.zone? zone.id with
  | some held =>
      have heldId := Memory.zone?_id found
      rw [Memory.contains, found, Option.isSome_some, if_pos rfl] at created
      refine ⟨marks.set zone.id (marks.tenant zone.id) zone.updatedAt, _, created, ?_⟩
      refine mirrors.replaced found ?_ fun other apart => marks.row_set_ne apart _ _
      rw [marks.row_set_self]
      simp [Table.replacement, Marks.row, ZoneRow.ofZone, heldId]
  | none =>
      rw [Memory.contains, found, Option.isSome_none, if_neg Bool.false_ne_true] at created
      refine ⟨marks.set zone.id caller.tenant? zone.updatedAt, _, created, ?_⟩
      have apart : ∀ other ∈ memory.zones, other.id ≠ zone.id := by
        intro other member
        have tested := List.find?_eq_none.mp found other member
        simpa using tested
      have added : memory.insertZone zone = { memory with zones := memory.zones ++ [zone] } := by
        unfold Memory.insertZone
        rw [found, Option.isSome_none, if_neg Bool.false_ne_true]
      have distinct := Memory.ids_insertZone memory zone mirrors.distinct
      rw [added] at distinct ⊢
      refine ⟨mirrors.opened, mirrors.accepting, distinct, ?_, mirrors.records⟩
      have rows : memory.zones.map (marks.set zone.id caller.tenant? zone.updatedAt).row =
          memory.zones.map marks.row :=
        List.map_congr_left fun other member => marks.row_set_ne (apart other member) _ _
      rw [List.map_append, List.map_singleton, marks.row_set_self, mirrors.zones, rows]

theorem Mirrors.add (mirrors : Mirrors marks memory table) {record : StoredRecord}
    (held : memory.contains record.zoneId = true) :
    ∃ after, table.addRecord record = .ok after ∧
      Mirrors marks (memory.insertRecord record) after := by
  have known : (table.zones.any fun row => row.id == record.zoneId) = true :=
    (mirrors.contains record.zoneId).trans held
  have added : table.addRecord record =
      .ok { table with records := table.records ++ [RecordRow.ofRecord record] } := by
    unfold Table.addRecord
    rw [mirrors.guard, ok_bind, if_pos known]
    rfl
  refine ⟨_, added, mirrors.opened, mirrors.accepting, mirrors.distinct, mirrors.zones, ?_⟩
  unfold Memory.insertRecord
  rw [mirrors.records, List.map_append]
  rfl

theorem Mirrors.purge (mirrors : Mirrors marks memory table) (id : String) :
    Mirrors marks (memory.purge id) (table.purge id) where
  opened := mirrors.opened
  accepting := mirrors.accepting
  distinct := (List.filter_sublist.map Zone.id).nodup mirrors.distinct
  zones := by
    unfold Memory.purge Table.purge
    rw [mirrors.zones, List.filter_map]
    rfl
  records := by
    unfold Memory.purge Table.purge
    rw [mirrors.records, List.filter_map]
    rfl

theorem judged_at (zone : Zone) (verdict : Status) (serial : UInt32) (now later : Timestamp) :
    zone.judged verdict serial later =
      ({ (zone.judged verdict serial now).1 with updatedAt := later },
        (zone.judged verdict serial now).2) := by
  cases verdict with
  | success =>
      by_cases deleting : zone.action = .delete
      · simp [Zone.judged, deleting]
      · simp [Zone.judged, deleting]
  | error => rfl
  | pending => rfl

theorem judged_parts (zone : Zone) (verdict : Status) (serial : UInt32) (now : Timestamp) :
    (zone.judged verdict serial now).1.name = zone.name ∧
      (zone.judged verdict serial now).1.poolId = zone.poolId := by
  cases verdict with
  | success =>
      by_cases deleting : zone.action = .delete
      · simp [Zone.judged, deleting]
      · simp [Zone.judged, deleting]
  | error => exact ⟨rfl, rfl⟩
  | pending => exact ⟨rfl, rfl⟩

theorem Mirrors.fetchZone (mirrors : Mirrors marks memory table)
    (found : memory.zone? zone.id = some held) : ∃ time,
      table.fetchZone zone.id = .ok (some { held with updatedAt := time }) := by
  have row := mirrors.find? zone.id
  rw [found, Option.map_some] at row
  have read := ZoneRow.toZone_replacement (marks.row held) (marks.tenant held.id)
    { held with updatedAt := marks.time held.id }
  exact ⟨_, Table.fetchZone_eq_some_iff.mpr ⟨mirrors.opened, _, row, read⟩⟩

theorem Mirrors.settle (mirrors : Mirrors marks memory table)
    (found : memory.zone? zone.id = some zone) (report : Report) (same : report.zoneId = zone.id)
    (memoryTime tableTime : Timestamp) : ∃ next, Mirrors next (memory.apply report memoryTime)
      (table.settle (zone.judged report.status report.serial tableTime)) := by
  have judgedId := judged_id zone report.status report.serial memoryTime
  have parts := judged_parts zone report.status report.serial memoryTime
  rw [judged_at zone report.status report.serial memoryTime tableTime]
  unfold Memory.apply
  rw [same, found]
  obtain ⟨⟨judged, removes⟩, outcome⟩ : ∃ result,
      zone.judged report.status report.serial memoryTime = result := ⟨_, rfl⟩
  rw [outcome] at judgedId parts
  simp only [outcome] at judgedId parts ⊢
  cases removes with
  | true =>
      refine ⟨marks, ?_⟩
      rw [← judgedId]
      exact mirrors.purge judged.id
  | false =>
      rw [← judgedId] at found
      refine ⟨marks.set judged.id (marks.tenant judged.id) tableTime, ?_⟩
      refine mirrors.replaced found ?_ fun other apart => marks.row_set_ne apart _ _
      rw [marks.row_set_self]
      simp [Marks.row, ZoneRow.ofZone, judgedId, parts]

theorem Mirrors.deliver_eq (mirrors : Mirrors marks memory table) (report : Report)
    (now : Timestamp) : memory.deliver report now =
      (.ok (), ({ memory with reports := memory.reports ++ [report] }).apply report now) := by
  unfold Memory.deliver
  rw [mirrors.accepting]

theorem Mirrors.deliver (mirrors : Mirrors marks memory table) {report : Report}
    (held : memory.contains report.zoneId = true) (memoryTime tableTime : Timestamp) :
    (memory.deliver report memoryTime).1 = .ok () ∧
      ∃ next after, table.deliver report tableTime = .ok after ∧
        Mirrors next (memory.deliver report memoryTime).2 after := by
  obtain ⟨zone, found⟩ := Option.isSome_iff_exists.mp held
  have sameId := Memory.zone?_id found
  rw [← sameId] at found
  obtain ⟨time, fetched⟩ := mirrors.fetchZone found
  have delivered : table.deliver report tableTime =
      .ok (table.settle (zone.judged report.status report.serial tableTime)) := by
    unfold Table.deliver
    rw [← sameId, fetched, ok_bind]
    dsimp only
    rw [judged_touched]
    rfl
  have reported : Mirrors marks { memory with reports := memory.reports ++ [report] } table :=
    ⟨mirrors.opened, mirrors.accepting, mirrors.distinct, mirrors.zones, mirrors.records⟩
  obtain ⟨next, settled⟩ := reported.settle found report sameId.symm memoryTime tableTime
  rw [mirrors.deliver_eq, delivered]
  exact ⟨rfl, next, _, rfl, settled⟩

theorem Mirrors.take (mirrors : Mirrors marks memory table) {call : Call}
    (fits : call.Fits memory) : ∃ next laterMemory laterTable,
      memory.take call = .ok laterMemory ∧ table.take call = .ok laterTable ∧
        Mirrors next laterMemory laterTable := by
  cases call with
  | create caller zone =>
      obtain ⟨next, after, created, later⟩ := mirrors.create caller fits
      exact ⟨next, _, after, rfl, created, later⟩
  | add record =>
      obtain ⟨after, added, later⟩ := mirrors.add fits
      exact ⟨marks, _, after, rfl, added, later⟩
  | deliver report memoryTime tableTime =>
      obtain ⟨accepted, next, after, delivered, later⟩ :=
        mirrors.deliver fits memoryTime tableTime
      refine ⟨next, _, after, ?_, delivered, later⟩
      have taken : memory.take (.deliver report memoryTime tableTime) =
          (memory.deliver report memoryTime).1.map fun _ =>
            (memory.deliver report memoryTime).2 := rfl
      rw [taken, accepted]
      rfl

theorem Mirrors.after (mirrors : Mirrors marks memory table) {calls : List Call}
    (proper : Proper memory calls) : ∃ next laterMemory laterTable,
      memory.after calls = .ok laterMemory ∧ table.after calls = .ok laterTable ∧
        Mirrors next laterMemory laterTable := by
  induction calls generalizing marks memory table with
  | nil => exact ⟨marks, memory, table, rfl, rfl, mirrors⟩
  | cons call later ih =>
      obtain ⟨fits, proper⟩ := proper
      obtain ⟨next, nextMemory, nextTable, taken, takenThere, mirrors⟩ := mirrors.take fits
      rw [taken] at proper
      obtain ⟨last, lastMemory, lastTable, made, madeThere, mirrors⟩ := ih mirrors proper
      refine ⟨last, lastMemory, lastTable, ?_, ?_, mirrors⟩
      · unfold Memory.after
        rw [List.foldlM_cons, taken, ok_bind]
        exact made
      · unfold Table.after
        rw [List.foldlM_cons, takenThere, ok_bind]
        exact madeThere

theorem mirrors_empty : Mirrors ⟨fun _ => none, fun _ => ⟨0, 0⟩⟩ {} {} :=
  ⟨rfl, rfl, List.nodup_nil, rfl, rfl⟩

theorem Proper.of_prefix {before calls : List Call} (proper : Proper memory calls)
    (begins : before <+: calls) : Proper memory before := by
  induction before generalizing memory calls with
  | nil => trivial
  | cons call earlier ih =>
      obtain ⟨later, rfl⟩ := begins
      obtain ⟨fits, proper⟩ := proper
      refine ⟨fits, ?_⟩
      cases taken : memory.take call with
      | ok after =>
          rw [taken] at proper
          exact ih proper (List.prefix_append earlier later)
      | error fault => trivial

/-! ### What both registries show -/

/-- All zones are read of the tables as those of the process but for their times, also by id; and
the records of every zone are those of the process. -/
structure Alike (memory : Memory) (table : Table) : Prop where
  zones : ∃ zones, table.zones.mapM ZoneRow.toZone = .ok zones ∧
    zones.map Zone.untimed = memory.zones.map Zone.untimed
  zone : ∀ id, ∃ found, table.fetchZone id = .ok found ∧
    found.map Zone.untimed = (memory.zone? id).map Zone.untimed
  records : ∀ id, table.findRecords id = .ok (memory.findRecords id)

theorem Marks.toZone_row (marks : Marks) (zone : Zone) : ∃ time,
    (marks.row zone).toZone = .ok { zone with updatedAt := time } :=
  ⟨_, ZoneRow.toZone_replacement (marks.row zone) (marks.tenant zone.id)
    { zone with updatedAt := marks.time zone.id }⟩

theorem mapM_row (marks : Marks) (zones : List Zone) : ∃ read,
    (zones.map marks.row).mapM ZoneRow.toZone = .ok read ∧
      read.map Zone.untimed = zones.map Zone.untimed := by
  induction zones with
  | nil => exact ⟨[], rfl, rfl⟩
  | cons first rest ih =>
      obtain ⟨time, here⟩ := marks.toZone_row first
      obtain ⟨read, there, same⟩ := ih
      refine ⟨{ first with updatedAt := time } :: read, ?_, ?_⟩
      · rw [List.map_cons, List.mapM_cons, here, ok_bind, there]
        rfl
      · rw [List.map_cons, List.map_cons, same]
        rfl

theorem Mirrors.findRecords (mirrors : Mirrors marks memory table) (id : String) :
    table.findRecords id = .ok (memory.findRecords id) := by
  have read : RecordRow.toRecord ∘ RecordRow.ofRecord = fun record => record :=
    funext RecordRow.toRecord_ofRecord
  have tests : ((fun row : RecordRow => row.zoneId == id) ∘ RecordRow.ofRecord) =
      fun record => record.zoneId == id := rfl
  unfold Table.findRecords Memory.findRecords
  rw [mirrors.guard, ok_bind, mirrors.records, List.filter_map, List.map_map, read, tests,
    List.map_id']
  rfl

theorem Mirrors.alike (mirrors : Mirrors marks memory table) : Alike memory table where
  zones := by
    rw [mirrors.zones]
    exact mapM_row marks memory.zones
  zone := by
    intro id
    cases found : memory.zone? id with
    | none =>
        refine ⟨none, ?_, rfl⟩
        unfold Table.fetchZone
        rw [mirrors.guard, ok_bind, mirrors.find?, found]
        rfl
    | some held =>
        have sameId := Memory.zone?_id found
        rw [← sameId] at found ⊢
        obtain ⟨time, fetched⟩ := mirrors.fetchZone found
        exact ⟨_, fetched, rfl⟩
  records := mirrors.findRecords

/-- Of what the process has, just the zone and its records are gone. -/
structure Memory.Purged (id : String) (before after : Memory) : Prop where
  zone : ∀ other, after.zone? other = if other = id then none else before.zone? other
  records : ∀ other, after.findRecords other = if other = id then [] else before.findRecords other

/-- Of what the tables have, just the zone and its records are gone. -/
structure Table.Purged (id : String) (before after : Table) : Prop where
  zone : ∀ other, after.fetchZone other = if other = id then .ok none else before.fetchZone other
  records : ∀ other,
    after.findRecords other = if other = id then .ok [] else before.findRecords other

theorem Memory.purged_purge (memory : Memory) (id : String) :
    memory.Purged id (memory.purge id) where
  zone := by
    intro other
    rw [zone?_purge]
    simp only [eq_comm]
  records := by
    intro other
    unfold purge findRecords
    rw [List.filter_filter]
    by_cases same : other = id
    · simp [same]
    · rw [if_neg same]
      refine List.filter_congr fun record _member => ?_
      by_cases mine : record.zoneId = other
      · simp [mine, same]
      · simp [mine]

theorem Mirrors.purged_purge (mirrors : Mirrors marks memory table) (id : String) :
    table.Purged id (table.purge id) where
  zone := by
    intro other
    unfold Table.fetchZone
    rw [mirrors.guard, (mirrors.purge id).guard, ok_bind, ok_bind, mirrors.find?,
      (mirrors.purge id).find?, (memory.purged_purge id).zone]
    by_cases same : other = id
    · rw [if_pos same, if_pos same]
      rfl
    · rw [if_neg same, if_neg same]
  records := by
    intro other
    rw [mirrors.findRecords, (mirrors.purge id).findRecords, (memory.purged_purge id).records]
    split
    · rfl
    · rfl

theorem Mirrors.pending? (mirrors : Mirrors marks memory table) (id : String) :
    table.pending? id = memory.pending? id := by
  unfold Table.pending? Memory.pending?
  rw [mirrors.find?]
  cases found : memory.zone? id with
  | none => rfl
  | some held =>
      obtain ⟨time, read⟩ := marks.toZone_row held
      change ((marks.row held).toZone.toOption.bind fun zone => some zone.action) = _
      rw [read]
      rfl

theorem Mirrors.purges (mirrors : Mirrors marks memory table) {report : Report}
    (success : report.status = .success)
    (waits : memory.pending? report.zoneId = some .delete) (memoryTime tableTime : Timestamp) :
    ∃ laterMemory laterTable,
      memory.take (.deliver report memoryTime tableTime) = .ok laterMemory ∧
        table.take (.deliver report memoryTime tableTime) = .ok laterTable ∧
        memory.Purged report.zoneId laterMemory ∧ table.Purged report.zoneId laterTable := by
  have held : memory.contains report.zoneId = true := by
    unfold Memory.pending? at waits
    obtain ⟨zone, found, -⟩ := Option.map_eq_some_iff.mp waits
    rw [Memory.contains, found]
    rfl
  obtain ⟨-, next, laterTable, delivered, -⟩ := mirrors.deliver held memoryTime tableTime
  have gone := Table.deliver_eq_purge delivered success ((mirrors.pending? _).trans waits)
  let reported : Memory := { memory with reports := memory.reports ++ [report] }
  have purged := reported.purged_purge report.zoneId
  have applied : reported.apply report memoryTime = reported.purge report.zoneId :=
    Memory.apply_eq_purge memoryTime success waits
  have taken : memory.take (.deliver report memoryTime tableTime) =
      .ok (reported.purge report.zoneId) := by
    unfold Memory.take
    dsimp only
    rw [mirrors.deliver_eq, ← applied]
    rfl
  exact ⟨_, laterTable, taken, delivered, ⟨purged.zone, purged.records⟩,
    gone ▸ mirrors.purged_purge report.zoneId⟩

/-- Whatever proper calls both registries are given, they accept all of them, and after every call
they hold the same.  A success that is reported of a pending deletion removes the zone and just its
own records from both. -/
theorem proper_calls_apply_alike {calls : List Call} (proper : Proper {} calls) :
    (∀ before, before <+: calls → ∃ memory table, Memory.after {} before = .ok memory ∧
      Table.after {} before = .ok table ∧ Alike memory table) ∧
    ∀ before report memoryTime tableTime memory table,
      before ++ [.deliver report memoryTime tableTime] <+: calls →
      Memory.after {} before = .ok memory → Table.after {} before = .ok table →
      report.status = .success → memory.pending? report.zoneId = some .delete →
      ∃ laterMemory laterTable,
        memory.take (.deliver report memoryTime tableTime) = .ok laterMemory ∧
          table.take (.deliver report memoryTime tableTime) = .ok laterTable ∧
          memory.Purged report.zoneId laterMemory ∧ table.Purged report.zoneId laterTable := by
  constructor
  · intro before begins
    obtain ⟨marks, memory, table, made, madeThere, mirrors⟩ :=
      mirrors_empty.after (proper.of_prefix begins)
    exact ⟨memory, table, made, madeThere, mirrors.alike⟩
  · intro before report memoryTime tableTime memory table begins made madeThere success waits
    obtain ⟨marks, sameMemory, sameTable, again, againThere, mirrors⟩ :=
      mirrors_empty.after (proper.of_prefix ((List.prefix_append before _).trans begins))
    rw [made] at again
    rw [madeThere] at againThere
    cases again
    cases againThere
    exact mirrors.purges success waits memoryTime tableTime

end Mirrors

def leavingZone : Zone := ⟨"z", "example.org.", 7, .delete, .pending, "default", .ofMillis 10⟩

def leavingRecord : StoredRecord := ⟨"z", "www.example.org.", "A", "192.0.2.1", some 300⟩

def leaving : List Call :=
  [.create (.tenant "t") leavingZone, .add leavingRecord]

def departure : Call := .deliver ⟨"z", .success, 7⟩ (.ofMillis 20) (.ofMillis 21)

/-- The zone leaves with its record, and another tenant creates it again. -/
def recreation : List Call :=
  leaving ++ [departure] ++
    [.create (.tenant "u") ⟨"z", "example.org.", 1, .create, .pending, "default", .ofMillis 30⟩]

theorem proper_calls_apply_alike_recreation :
    Proper {} recreation ∧
      (∃ memory table, Memory.after {} recreation = .ok memory ∧
        Table.after {} recreation = .ok table ∧ Alike memory table ∧
        memory.contains "z" = true) ∧
      ∃ memory table, Memory.after {} (leaving ++ [departure]) = .ok memory ∧
        Table.after {} (leaving ++ [departure]) = .ok table ∧ memory.zone? "z" = none ∧
        table.fetchZone "z" = .ok none ∧ memory.findRecords "z" = [] ∧
        table.findRecords "z" = .ok [] := by
  have proper : Proper {} recreation := by decide +kernel
  obtain ⟨alike, purges⟩ := proper_calls_apply_alike proper
  obtain ⟨memory, table, made, madeThere, same⟩ := alike recreation List.prefix_rfl
  have present : memory.contains "z" = true := by
    cases made
    rfl
  have begins : leaving ++ [departure] <+: recreation := List.prefix_append _ _
  obtain ⟨before, beforeThere, held, heldThere, -⟩ :=
    alike leaving ((List.prefix_append _ _).trans begins)
  have waits : before.pending? "z" = some .delete := by
    cases held
    rfl
  obtain ⟨purged, purgedThere, taken, takenThere, gone, goneThere⟩ :=
    purges leaving ⟨"z", .success, 7⟩ (.ofMillis 20) (.ofMillis 21) before beforeThere begins held
      heldThere rfl waits
  refine ⟨proper, ⟨memory, table, made, madeThere, same, present⟩, purged, purgedThere, ?_, ?_,
    gone.zone "z", goneThere.zone "z", gone.records "z", goneThere.records "z"⟩
  · exact (foldlM_concat held departure).trans taken
  · exact (foldlM_concat heldThere departure).trans takenThere

end ZonePropagation.Registry
