import ZonePropagation.Registry.Store
/-!
What a delivered report makes of the registry.

A report changes no zone but its own.  An accepted success removes the zone when its pending action,
as the registry has it, is a deletion, and leaves it active otherwise; no other report does either.
-/

namespace ZonePropagation

def Zone.untimed (zone : Zone) : Zone := { zone with updatedAt := ⟨0, 0⟩ }

namespace Registry

def Report.leaves (report : Report) (now : Timestamp) (zone : Zone) : Option Zone :=
  match zone.judged report.status report.serial now with
  | (_, true) => none
  | (judged, false) => some judged

/-- A success removes a zone that waits for its deletion, and no report removes another. -/
theorem judged_removes_iff (zone : Zone) (verdict : Status) (serial : UInt32) (now : Timestamp) :
    (zone.judged verdict serial now).2 = true ↔ verdict = .success ∧ zone.action = .delete := by
  cases verdict with
  | success =>
      by_cases deleting : zone.action = .delete
      · simp [Zone.judged, deleting]
      · simp [Zone.judged, deleting]
  | error => simp [Zone.judged]
  | pending => simp [Zone.judged]

theorem judged_id (zone : Zone) (verdict : Status) (serial : UInt32) (now : Timestamp) :
    (zone.judged verdict serial now).1.id = zone.id := by
  cases verdict with
  | success =>
      by_cases deleting : zone.action = .delete
      · simp [Zone.judged, deleting]
      · simp [Zone.judged, deleting]
  | error => rfl
  | pending => rfl

theorem Report.leaves_none_iff (report : Report) (now : Timestamp) (zone : Zone) :
    report.leaves now zone = none ↔ report.status = .success ∧ zone.action = .delete := by
  rw [← judged_removes_iff zone report.status report.serial now]
  unfold leaves
  obtain ⟨judged, removes⟩ := zone.judged report.status report.serial now
  cases removes with
  | true => simp
  | false => simp

theorem Report.leaves_untimed (report : Report) (now : Timestamp) (zone : Zone) :
    (report.leaves now zone).map Zone.untimed = report.leaves ⟨0, 0⟩ zone.untimed := by
  unfold leaves Zone.judged Zone.untimed
  cases report.status with
  | success =>
      by_cases deleting : zone.action = .delete
      · simp [deleting]
      · simp [deleting]
  | error | pending => rfl

private theorem any_of_filtered {α : Type} (idOf : α → String) (items : List α)
    (removed id : String) :
    ((items.filter fun item => idOf item != removed).any fun item => idOf item == id) =
      ((items.any fun item => idOf item == id) && removed != id) := by
  rw [List.any_filter]
  by_cases same : removed = id
  · subst same
    simp
  · have other : ∀ item, (idOf item != removed && idOf item == id) = (idOf item == id) := by
      intro item
      by_cases here : idOf item = id
      · simp [here, Ne.symm same]
      · simp [here]
    simp [other, same]

private theorem countP_of_filtered {α : Type} (idOf : α → String) (items : List α) (id : String) :
    ((items.filter fun item => idOf item != id).countP fun item => idOf item == id) = 0 := by
  rw [List.countP_eq_zero]
  intro item member
  have other := (List.mem_filter.mp member).2
  simpa using other

namespace Memory

def contains (memory : Memory) (id : String) : Bool :=
  (memory.zone? id).isSome

def pending? (memory : Memory) (id : String) : Option ZoneAction :=
  (memory.zone? id).map Zone.action

theorem zone?_id {memory : Memory} {id : String} {zone : Zone}
    (found : memory.zone? id = some zone) : zone.id = id := by
  have tested := List.find?_some found
  exact eq_of_beq tested

theorem zone?_insertZone (memory : Memory) (zone : Zone) (id : String) :
    (memory.insertZone zone).zone? id = if zone.id = id then some zone else memory.zone? id := by
  unfold insertZone
  split
  · next known =>
      have sameTest : (fun other : Zone => (if other.id == zone.id then zone else other).id == id) =
          fun other => other.id == id := by
        funext other
        by_cases same : other.id = zone.id
        · simp [same]
        · simp [same]
      change (memory.zones.map _).find? _ = _
      rw [List.find?_map, Function.comp_def, sameTest]
      change (memory.zone? id).map _ = _
      cases found : memory.zone? id with
      | none =>
          by_cases same : zone.id = id
          · rw [same, found] at known
            cases known
          · simp [same]
      | some held =>
          by_cases same : zone.id = id
          · simp [zone?_id found, same]
          · simp [zone?_id found, same, Ne.symm same]
  · next unknown =>
      change (memory.zones ++ [zone]).find? _ = _
      rw [List.find?_append]
      change (memory.zone? id).or _ = _
      by_cases same : zone.id = id
      · rw [same, Bool.not_eq_true, Option.isSome_eq_false_iff, Option.isNone_iff_eq_none] at unknown
        simp [unknown, same]
      · simp [same]

theorem contains_insertZone {memory : Memory} {id : String} (zone : Zone)
    (held : memory.contains id = true) : (memory.insertZone zone).contains id = true := by
  unfold contains
  rw [zone?_insertZone]
  split
  · rfl
  · exact held

theorem zone?_purge (memory : Memory) (removed id : String) :
    (memory.purge removed).zone? id = if removed = id then none else memory.zone? id := by
  unfold purge zone?
  rw [List.find?_filter]
  by_cases same : removed = id
  · simp [same]
  · rw [if_neg same]
    refine congrArg (fun test => memory.zones.find? test) (funext fun zone => ?_)
    by_cases here : zone.id = id
    · simp [here, Ne.symm same]
    · simp [here]

theorem zone?_apply (memory : Memory) (report : Report) (now : Timestamp) (id : String) :
    (memory.apply report now).zone? id =
      if report.zoneId = id then (memory.zone? id).bind (report.leaves now)
      else memory.zone? id := by
  unfold apply
  cases found : memory.zone? report.zoneId with
  | none =>
      by_cases same : report.zoneId = id
      · rw [if_pos same, ← same, found]
        rfl
      · rw [if_neg same]
  | some zone =>
      have sameId := judged_id zone report.status report.serial now
      have ending : (memory.zone? report.zoneId).bind (report.leaves now) =
          report.leaves now zone := by rw [found]; rfl
      unfold Report.leaves at ending ⊢
      obtain ⟨⟨judged, removes⟩, outcome⟩ : ∃ result,
          zone.judged report.status report.serial now = result := ⟨_, rfl⟩
      rw [outcome] at sameId ending
      dsimp only
      rw [outcome]
      cases removes with
      | true =>
          change (memory.purge report.zoneId).zone? id = _
          rw [zone?_purge]
          by_cases same : report.zoneId = id
          · rw [if_pos same, if_pos same, ← same, ending]
          · rw [if_neg same, if_neg same]
      | false =>
          change (memory.insertZone judged).zone? id = _
          rw [zone?_insertZone, show judged.id = report.zoneId from sameId.trans (zone?_id found)]
          by_cases same : report.zoneId = id
          · rw [if_pos same, if_pos same, ← same, ending]
          · rw [if_neg same, if_neg same]

theorem zone?_deliver (memory : Memory) (report : Report) (now : Timestamp) (id : String) :
    ((memory.deliver report now).1 ≠ .ok () ∧
        (memory.deliver report now).2.zone? id = memory.zone? id) ∨
      ((memory.deliver report now).1 = .ok () ∧ (memory.deliver report now).2.zone? id =
        if report.zoneId = id then (memory.zone? id).bind (report.leaves now)
        else memory.zone? id) := by
  unfold deliver
  split
  · exact .inl ⟨(by simp), rfl⟩
  · exact .inr ⟨rfl, zone?_apply { memory with reports := memory.reports ++ [report] } report now id⟩

theorem deliver_accepting {memory : Memory} (accepting : memory.refusals = 0)
    (report : Report) (now : Timestamp) :
    (memory.deliver report now).1 = .ok () ∧ (memory.deliver report now).2.refusals = 0 ∧
      (memory.deliver report now).2.reports = memory.reports ++ [report] := by
  have kept : ∀ before : Memory, (before.apply report now).refusals = before.refusals ∧
      (before.apply report now).reports = before.reports := by
    intro before
    unfold apply insertZone purge
    split
    · exact ⟨rfl, rfl⟩
    · split
      · exact ⟨rfl, rfl⟩
      · split
        · exact ⟨rfl, rfl⟩
        · exact ⟨rfl, rfl⟩
  obtain ⟨zones, records, reports, refusals⟩ := memory
  cases accepting
  exact ⟨rfl, kept _⟩

/-- Only an accepted success removes a zone, and only one that waits for its deletion. -/
theorem deliver_removes_iff {memory : Memory} {report : Report} {now : Timestamp} {id : String}
    (held : memory.contains id = true) :
    (memory.deliver report now).2.contains id = false ↔
      report.zoneId = id ∧ report.status = .success ∧ (memory.deliver report now).1 = .ok () ∧
        memory.pending? id = some .delete := by
  obtain ⟨zone, found⟩ := Option.isSome_iff_exists.mp held
  have waits : memory.pending? id = some zone.action := by
    unfold pending?
    rw [found]
    rfl
  rw [waits, Option.some_inj]
  rcases zone?_deliver memory report now id with ⟨refused, same⟩ | ⟨accepted, left⟩
  · unfold contains
    rw [same, found]
    simp [refused]
  · unfold contains
    rw [left, found, accepted]
    by_cases same : report.zoneId = id
    · rw [if_pos same, Option.bind_some, Option.isSome_eq_false_iff, Option.isNone_iff_eq_none,
        Report.leaves_none_iff]
      simp [same]
    · simp [same]

theorem apply_eq_purge {memory : Memory} {report : Report} (now : Timestamp)
    (success : report.status = .success) (waits : memory.pending? report.zoneId = some .delete) :
    memory.apply report now = memory.purge report.zoneId := by
  unfold pending? at waits
  obtain ⟨zone, found, deleting⟩ := Option.map_eq_some_iff.mp waits
  have removes := (judged_removes_iff zone report.status report.serial now).mpr
    ⟨success, deleting⟩
  unfold apply
  rw [found]
  obtain ⟨⟨judged, flag⟩, outcome⟩ : ∃ result,
      zone.judged report.status report.serial now = result := ⟨_, rfl⟩
  rw [outcome] at removes
  cases removes
  simp only [outcome]

end Memory

namespace Table

def contains (table : Table) (id : String) : Bool :=
  table.zones.any fun row => row.id == id

def pending? (table : Table) (id : String) : Option ZoneAction := do
  let row ← table.zones.find? fun row => row.id == id
  let zone ← row.toZone.toOption
  return zone.action

theorem toZone_id {row : ZoneRow} {zone : Zone} (read : row.toZone = .ok zone) :
    zone.id = row.id := by
  unfold ZoneRow.toZone at read
  cases action : ZoneRow.wordOf (ZoneAction.ofText row.action) with
  | error fault =>
      rw [action] at read
      cases read
  | ok action =>
      cases status : ZoneRow.wordOf (ZoneStatus.ofText row.status) with
      | error fault =>
          rw [action, status] at read
          cases read
      | ok status =>
          rw [action, status] at read
          cases read
          rfl

theorem contains_amend (table : Table) (zone : Zone) (id : String) :
    (table.amend zone).contains id = table.contains id := by
  unfold amend contains
  rw [List.any_map]
  refine congrArg (List.any table.zones) (funext fun row => ?_)
  by_cases same : row.id = zone.id
  · simp [same]
  · simp [same]

theorem contains_purge (table : Table) (removed id : String) :
    (table.purge removed).contains id = (table.contains id && removed != id) :=
  any_of_filtered ZoneRow.id table.zones removed id

theorem deliver_accepted {table after : Table} {report : Report} {now : Timestamp}
    (delivered : table.deliver report now = .ok after) :
    ∃ row zone, (table.zones.find? fun row => row.id == report.zoneId) = some row ∧
      row.toZone = .ok zone ∧
        after = table.settle (zone.judged report.status report.serial now) := by
  unfold deliver fetchZone at delivered
  cases unlocked : table.guard with
  | error fault =>
      rw [unlocked] at delivered
      cases delivered
  | ok _ =>
      rw [unlocked] at delivered
      cases found : table.zones.find? fun row => row.id == report.zoneId with
      | none =>
          simp only [found] at delivered
          cases delivered
      | some row =>
          simp only [found] at delivered
          cases read : row.toZone with
          | error fault =>
              rw [read] at delivered
              cases delivered
          | ok zone =>
              rw [read] at delivered
              exact ⟨row, zone, rfl, read, (Except.ok.inj delivered).symm⟩

theorem deliver_eq_purge {table after : Table} {report : Report} {now : Timestamp}
    (delivered : table.deliver report now = .ok after) (success : report.status = .success)
    (waits : table.pending? report.zoneId = some .delete) : after = table.purge report.zoneId := by
  obtain ⟨row, zone, found, read, rfl⟩ := deliver_accepted delivered
  have deleting : zone.action = .delete := by
    unfold pending? at waits
    rw [found] at waits
    change (row.toZone.toOption.bind fun zone => some zone.action) = _ at waits
    rw [read] at waits
    exact Option.some.inj waits
  have removes := (judged_removes_iff zone report.status report.serial now).mpr
    ⟨success, deleting⟩
  have sameId := judged_id zone report.status report.serial now
  unfold settle
  rw [if_pos removes, sameId, toZone_id read]
  have tested := List.find?_some found
  rw [eq_of_beq tested]

theorem deliver_removes_iff {table after : Table} {report : Report} {now : Timestamp} {id : String}
    (held : table.contains id = true) (delivered : table.deliver report now = .ok after) :
    after.contains id = false ↔
      report.zoneId = id ∧ report.status = .success ∧ table.pending? id = some .delete := by
  obtain ⟨row, zone, found, read, rfl⟩ := deliver_accepted delivered
  have sameRow : row.id = report.zoneId := by
    have tested := List.find?_some found
    exact eq_of_beq tested
  have pendingAction : report.zoneId = id → table.pending? id = some zone.action := by
    intro same
    subst same
    unfold pending?
    rw [found]
    change (row.toZone.toOption.bind fun zone => some zone.action) = _
    rw [read]
    rfl
  have decisive := judged_removes_iff zone report.status report.serial now
  have sameId := judged_id zone report.status report.serial now
  obtain ⟨⟨judged, removes⟩, outcome⟩ : ∃ result,
      zone.judged report.status report.serial now = result := ⟨_, rfl⟩
  rw [outcome] at decisive sameId ⊢
  have sameZone : judged.id = report.zoneId := by
    rw [← sameRow, ← toZone_id read]
    exact sameId
  cases removes with
  | true =>
      obtain ⟨success, deleting⟩ := decisive.mp rfl
      change (table.purge judged.id).contains id = false ↔ _
      rw [contains_purge, held, sameZone]
      constructor
      · intro gone
        have same : report.zoneId = id := by simpa using gone
        refine ⟨same, success, ?_⟩
        rw [pendingAction same, deleting]
      · rintro ⟨same, -, -⟩
        simp [same]
  | false =>
      change (table.amend judged).contains id = false ↔ _
      rw [contains_amend, held]
      constructor
      · intro gone
        cases gone
      · rintro ⟨same, success, deleting⟩
        rw [pendingAction same, Option.some_inj] at deleting
        have removes := decisive.mpr ⟨success, deleting⟩
        cases removes

end Table

namespace Store

def contains : Store → String → Bool
  | .memory zones, id => zones.contains id
  | .table zones, id => zones.contains id

def pending? : Store → String → Option ZoneAction
  | .memory zones, id => zones.pending? id
  | .table zones, id => zones.pending? id

def recordCount : Store → String → Nat
  | .memory zones, id => zones.records.countP fun record => record.zoneId == id
  | .table zones, id => zones.records.countP fun row => row.zoneId == id

/-- A registry in the process refuses reports as often as it was told to, and then accepts. -/
theorem deliver_memory (zones : Memory) (report : Report) (now : Timestamp) :
    (∃ left, zones.refusals = left + 1 ∧ (Store.memory zones).deliver report now =
        (.error (.registry "injected report failure"), .memory { zones with refusals := left })) ∨
      (zones.refusals = 0 ∧ (Store.memory zones).deliver report now =
        (.ok (), .memory (({ zones with reports := zones.reports ++ [report] } : Memory).apply
          report now))) := by
  unfold deliver Memory.deliver
  cases refusals : zones.refusals with
  | zero => simp only [refusals, true_and, or_true]
  | succ left => simp only [refusals, Nat.add_right_cancel_iff, exists_eq_left', true_or]

/-- The registry but for the number of reports that it is still to refuse. -/
def standing : Store → Store
  | .memory zones => .memory { zones with refusals := 0 }
  | .table zones => .table zones

theorem standing_of_refused {store after : Store} {report : Report} {now : Timestamp} {fault : Fault}
    (refused : store.deliver report now = (.error fault, after)) :
    after.standing = store.standing := by
  cases store with
  | memory zones =>
      rcases deliver_memory zones report now with ⟨left, -, outcome⟩ | ⟨-, outcome⟩
      · rw [outcome] at refused
        cases refused
        rfl
      · rw [outcome] at refused
        cases refused
  | table zones =>
      unfold deliver at refused
      dsimp only at refused
      split at refused
      · cases refused
      · cases refused
        rfl

/-- Only an accepted success removes a zone, and only one that waits for its deletion. -/
theorem deliver_removes_iff {store : Store} {report : Report} {now : Timestamp} {id : String}
    (held : store.contains id = true) :
    (store.deliver report now).2.contains id = false ↔
      report.zoneId = id ∧ report.status = .success ∧ (store.deliver report now).1 = .ok () ∧
        store.pending? id = some .delete := by
  cases store with
  | memory zones => exact Memory.deliver_removes_iff held
  | table zones =>
      cases delivered : zones.deliver report now with
      | error fault =>
          have refused : (Store.table zones).deliver report now = (.error fault, .table zones) := by
            simp only [deliver, delivered]
          rw [refused]
          constructor
          · intro gone
            rw [show (Store.table zones).contains id = true from held] at gone
            cases gone
          · rintro ⟨-, -, accepted, -⟩
            cases accepted
      | ok after =>
          have accepted : (Store.table zones).deliver report now = (.ok (), .table after) := by
            simp only [deliver, delivered]
          rw [accepted]
          have removal : (Store.table after).contains id = false ↔ report.zoneId = id ∧
              report.status = .success ∧ (Store.table zones).pending? id = some .delete :=
            Table.deliver_removes_iff held delivered
          simpa using removal

theorem deliver_removes_records {store : Store} {report : Report} {now : Timestamp} {id : String}
    (held : store.contains id = true) (removed : (store.deliver report now).2.contains id = false) :
    (store.deliver report now).2.recordCount id = 0 := by
  obtain ⟨same, success, accepted, waits⟩ := (deliver_removes_iff held).mp removed
  subst same
  cases store with
  | memory zones =>
      rcases deliver_memory zones report now with ⟨left, -, refused⟩ | ⟨-, outcome⟩
      · rw [refused] at accepted
        cases accepted
      · have purged : ({ zones with reports := zones.reports ++ [report] } : Memory).apply report now =
            ({ zones with reports := zones.reports ++ [report] } : Memory).purge report.zoneId :=
          Memory.apply_eq_purge now success waits
        rw [outcome, purged]
        exact countP_of_filtered StoredRecord.zoneId zones.records report.zoneId
  | table zones =>
      cases delivered : zones.deliver report now with
      | error fault =>
          simp only [deliver, delivered] at accepted
          cases accepted
      | ok after =>
          have outcome : (Store.table zones).deliver report now = (.ok (), .table after) := by
            simp only [deliver, delivered]
          rw [outcome, Table.deliver_eq_purge delivered success waits]
          exact countP_of_filtered RecordRow.zoneId zones.records report.zoneId

end Store

end Registry

end ZonePropagation
