import ZonePropagation.Proofs.Registry.Selection
/-!
What a tenant learns from a table of zones.

The rows of others are left out before rows are sorted, cut to the limit, counted or read.  So a
tenant finds what an administrator would find in a table of the tenant's rows alone, and no other
row makes a difference: not its place or its time, and not that it cannot be read.
-/

namespace ZonePropagation.Registry.Table

def rowsOf (table : Table) (tenant : String) : List ZoneRow :=
  table.zones.filter (ZoneRow.visibleTo (.tenant tenant))

def narrowed (table : Table) (tenant : String) : Table :=
  { zones := table.rowsOf tenant, closed := table.closed }

/-- The zone is read of a row of the tenant; and where no two rows have the same id, every row with
the id of the zone is one of the tenant. -/
structure Owns (table : Table) (tenant : String) (zone : Zone) : Prop where
  read : ∃ row ∈ table.zones, row.tenant = some tenant ∧ row.toZone = .ok zone
  sole : (table.zones.map ZoneRow.id).Nodup →
    ∀ row ∈ table.zones, row.id = zone.id → row.tenant = some tenant

variable {table : Table} {tenant : String} {criterion : ZoneCriterion}

/-! ### Rows of others are left out first -/

theorem select_narrowed (table : Table) (tenant : String) (criterion : ZoneCriterion) :
    (table.narrowed tenant).select .admin criterion = table.select (.tenant tenant) criterion := by
  have visible : (fun row : ZoneRow => row.meets criterion && row.visibleTo .admin) =
      fun row => row.meets criterion :=
    funext fun row => Bool.and_true _
  rw [select, select, visible, narrowed, rowsOf, List.filter_filter]

theorem findZones_narrowed (table : Table) (tenant : String) (criterion : ZoneCriterion) :
    (table.narrowed tenant).findZones .admin criterion =
      table.findZones (.tenant tenant) criterion := by
  rw [findZones, findZones, select_narrowed]
  rfl

theorem findZone_narrowed (table : Table) (tenant : String) (criterion : ZoneCriterion) :
    (table.narrowed tenant).findZone .admin criterion =
      table.findZone (.tenant tenant) criterion := by
  rw [findZone, findZone, findZones_narrowed]

/-! ### Zones that are found -/

theorem mem_of_mem_select {caller : Caller} {row : ZoneRow}
    (selected : row ∈ table.select caller criterion) :
    row ∈ table.zones ∧ row.meets criterion = true ∧ row.visibleTo caller = true := by
  have sorted := (criterion.limited_sublist _).subset selected
  obtain ⟨member, passes⟩ := List.mem_filter.mp ((List.mergeSort_perm _ _).subset sorted)
  exact ⟨member, Bool.and_eq_true_iff.mp passes⟩

theorem exists_row_of_findZones {caller : Caller} {zones : List Zone}
    (found : table.findZones caller criterion = .ok zones) {zone : Zone} (member : zone ∈ zones) :
    ∃ row ∈ table.select caller criterion, row.toZone = .ok zone := by
  obtain ⟨_, -, readAll⟩ := bind_eq_ok_iff.mp found
  exact (mem_of_mapM readAll zone).mp member

theorem owns_of_findZones {zones : List Zone}
    (found : table.findZones (.tenant tenant) criterion = .ok zones) {zone : Zone}
    (member : zone ∈ zones) : table.Owns tenant zone := by
  obtain ⟨row, selected, read⟩ := exists_row_of_findZones found member
  obtain ⟨held, -, visible⟩ := mem_of_mem_select selected
  have mine : row.tenant = some tenant := beq_iff_eq.mp visible
  refine ⟨⟨row, held, mine, read⟩, fun distinct other otherHeld sameId => ?_⟩
  rw [toZone_id read] at sameId
  rw [List.inj_on_of_nodup_map distinct otherHeld held sameId, mine]

theorem eq_singleton_of_theOnly {key : String} {zones : List Zone} {zone : Zone}
    (only : theOnly key zones = .ok zone) : zones = [zone] := by
  unfold theOnly at only
  split at only
  · cases only
    rfl
  · cases only
  · cases only

theorem findZones_of_findZone {caller : Caller} {zone : Zone}
    (found : table.findZone caller criterion = .ok zone) :
    table.findZones caller criterion = .ok [zone] := by
  obtain ⟨zones, several, only⟩ := bind_eq_ok_iff.mp found
  rw [several, eq_singleton_of_theOnly only]

/-- Two tables with the same rows of a tenant, in the same order, give the tenant the same answers:
those that an administrator gets from these rows alone.  Every zone in them is one of the tenant. -/
theorem tenant_learns_own_rows {left right : Table} {tenant : String}
    (own : left.rowsOf tenant = right.rowsOf tenant) (access : left.closed = right.closed)
    (criterion : ZoneCriterion) :
    left.findZones (.tenant tenant) criterion = right.findZones (.tenant tenant) criterion ∧
      left.findZone (.tenant tenant) criterion = right.findZone (.tenant tenant) criterion ∧
      left.findZones (.tenant tenant) criterion =
        (left.narrowed tenant).findZones .admin criterion ∧
      (∀ zones, left.findZones (.tenant tenant) criterion = .ok zones →
        ∀ zone ∈ zones, left.Owns tenant zone) ∧
      ∀ zone, left.findZone (.tenant tenant) criterion = .ok zone → left.Owns tenant zone := by
  have alike : left.narrowed tenant = right.narrowed tenant := by
    rw [narrowed, narrowed, own, access]
  refine ⟨?_, ?_, (findZones_narrowed left tenant criterion).symm, ?_, ?_⟩
  · rw [← findZones_narrowed left, ← findZones_narrowed right, alike]
  · rw [← findZone_narrowed left, ← findZone_narrowed right, alike]
  · exact fun zones found zone member => owns_of_findZones found member
  · intro zone found
    exact owns_of_findZones (findZones_of_findZone found) (List.mem_singleton_self zone)

def waitingRow : ZoneRow :=
  ⟨"a", "a.example.", 7, "CREATE", "PENDING", "default", some "alpha", 20⟩

/-- An older row of another tenant, with an action that there is not. -/
def brokenRow : ZoneRow :=
  ⟨"b", "b.example.", 7, "RENAME", "PENDING", "default", some "beta", 10⟩

theorem tenant_learns_own_rows_limited :
    rowsOf { zones := [brokenRow, waitingRow] } "alpha" = rowsOf { zones := [waitingRow] } "alpha" ∧
      findZone { zones := [brokenRow, waitingRow] } (.tenant "alpha") { limit := some 1 } =
        .ok ⟨"a", "a.example.", 7, .create, .pending, "default", .ofMillis 20⟩ ∧
      findZone { zones := [brokenRow, waitingRow] } .admin { limit := some 1 } =
        .error (.registry "invalid ZoneAction: RENAME") := by
  have own : rowsOf { zones := [brokenRow, waitingRow] } "alpha" =
      rowsOf { zones := [waitingRow] } "alpha" := by decide +kernel
  obtain ⟨-, alone, -⟩ := tenant_learns_own_rows own rfl { limit := some 1 }
  refine ⟨own, ?_, ?_⟩
  · rw [alone]
    decide +kernel
  · have selected : select { zones := [brokenRow, waitingRow] } .admin { limit := some 1 } =
        [brokenRow] := by
      rw [select, List.mergeSort_of_pairwise (by decide +kernel)]
      decide +kernel
    rw [findZone, findZones, selected]
    decide +kernel

end ZonePropagation.Registry.Table
