import Mathlib
import ZonePropagation.Proofs.Octets.Placement
import ZonePropagation.Proofs.Registry.Delivery
import ZonePropagation.Proofs.Zone.Words
/-!
A report that is delivered while its zone is created anew.

Delivering a report to the tables takes two steps, reading the zone and writing what the verdict
makes of it, and nothing keeps a creation of the zone from falling between them.  Then the parts
that a report changes are written as the zone had them before the creation.  The tables end as after
one call and then the other only when this happens to make no difference.
-/

namespace ZonePropagation.Registry

/-- The parts of a zone that a report can change, the time as the tables hold it. -/
def reported (zone : Zone) : UInt32 × ZoneAction × ZoneStatus × Int :=
  (zone.serial, zone.action, zone.status, zone.updatedAt.toMillis)

theorem judged_touched (zone : Zone) (time : Timestamp) (verdict : Status) (serial : UInt32)
    (now : Timestamp) :
    ({ zone with updatedAt := time } : Zone).judged verdict serial now =
      zone.judged verdict serial now := by
  cases verdict <;> rfl

namespace ZoneRow

def amended (zone : Zone) (row : ZoneRow) : ZoneRow :=
  { row with
    serial := zone.serial.toNat
    action := zone.action.text
    status := zone.status.text
    updatedAt := zone.updatedAt.toMillis }

theorem amended_eq_amended_iff (left right : Zone) (row : ZoneRow) :
    row.amended left = row.amended right ↔ reported left = reported right := by
  simp [amended, reported, ZoneAction.text_injective.eq_iff, ZoneStatus.text_injective.eq_iff,
    UInt32.toNat_inj]

theorem toZone_replacement (old : ZoneRow) (tenant : Option String) (zone : Zone) :
    (Table.replacement old (ofZone tenant zone)).toZone =
      .ok { zone with updatedAt := Status.TableRow.timeOf zone.updatedAt.toMillis } := by
  have serial : low32 (zone.serial.toNat : Int) = zone.serial := low_toNat zone.serial
  unfold toZone
  simp only [Table.replacement, ofZone, ZoneAction.ofText_text, ZoneStatus.ofText_text, wordOf,
    Except.mapError, serial]
  rfl

end ZoneRow

namespace Table

/-! ### Rows of one zone -/

def rewrite (table : Table) (id : String) (change : ZoneRow → ZoneRow) : Table :=
  { table with zones := table.zones.map fun row => if row.id == id then change row else row }

variable {table : Table} {id : String} {change next : ZoneRow → ZoneRow}

theorem amend_eq_rewrite (table : Table) (zone : Zone) :
    table.amend zone = table.rewrite zone.id (ZoneRow.amended zone) := rfl

theorem changed_test (keeps : ∀ row, row.id = id → (change row).id = id) :
    ((fun row : ZoneRow => row.id == id) ∘ fun row => if row.id == id then change row else row) =
      fun row => row.id == id := by
  funext row
  by_cases mine : row.id = id
  · simp [mine, keeps row mine]
  · simp [mine]

theorem rewrite_rewrite (keeps : ∀ row, row.id = id → (change row).id = id) :
    (table.rewrite id change).rewrite id next = table.rewrite id (next ∘ change) := by
  unfold rewrite
  rw [List.map_map]
  congr 1
  refine List.map_congr_left fun row _member => ?_
  by_cases mine : row.id = id
  · simp [mine, keeps row mine]
  · simp [mine]

theorem contains_rewrite (keeps : ∀ row, row.id = id → (change row).id = id) :
    (table.rewrite id change).contains id = table.contains id := by
  unfold rewrite contains
  rw [List.any_map, changed_test keeps]

theorem find?_rewrite {row : ZoneRow} (keeps : ∀ row, row.id = id → (change row).id = id)
    (found : (table.zones.find? fun row => row.id == id) = some row) :
    ((table.rewrite id change).zones.find? fun row => row.id == id) = some (change row) := by
  have tested := List.find?_some found
  unfold rewrite
  rw [List.find?_map, changed_test keeps, found, Option.map_some, if_pos tested]

theorem purge_rewrite (keeps : ∀ row, row.id = id → (change row).id = id) :
    (table.rewrite id change).purge id = table.purge id := by
  have sameTest : ((fun row : ZoneRow => row.id != id) ∘
      fun row => if row.id == id then change row else row) = fun row => row.id != id :=
    congrArg (fun test row => !test row) (changed_test keeps)
  unfold rewrite purge
  rw [List.filter_map, sameTest]
  congr 1
  refine (List.map_congr_left fun row member => ?_).trans (List.map_id _)
  have other := (List.mem_filter.mp member).2
  rw [bne_iff_ne] at other
  simp [other]

theorem rewrite_zones_eq_iff {same : Prop} (held : table.contains id = true)
    (decides : ∀ row, change row = next row ↔ same) :
    (table.rewrite id change).zones = (table.rewrite id next).zones ↔ same := by
  unfold rewrite
  rw [List.map_inj_left]
  constructor
  · intro alike
    obtain ⟨row, member, mine⟩ := List.any_eq_true.mp held
    have changed := alike row member
    rw [if_pos mine, if_pos mine] at changed
    exact (decides row).mp changed
  · intro holds row _member
    rw [(decides row).mpr holds]

theorem rewrite_zones_ne_purge (held : table.contains id = true)
    (keeps : ∀ row, row.id = id → (change row).id = id) :
    (table.rewrite id change).zones ≠ (table.purge id).zones := by
  intro same
  have kept : (table.rewrite id change).contains id = true := (contains_rewrite keeps).trans held
  rw [contains, same, ← contains, contains_purge, bne_self_eq_false, Bool.and_false] at kept
  cases kept

/-! ### The operations as changes of rows -/

theorem fetchZone_eq_some_iff {held : Zone} : table.fetchZone id = .ok (some held) ↔
    table.closed = false ∧ ∃ row, (table.zones.find? fun row => row.id == id) = some row ∧
      row.toZone = .ok held := by
  unfold fetchZone guard
  cases table.closed with
  | true => simp
  | false =>
      cases found : table.zones.find? fun row => row.id == id with
      | none => simp [pure, Except.pure]
      | some row =>
          cases read : row.toZone with
          | error fault => simp [read]
          | ok zone => simp [read, pure, Except.pure]

theorem putRow_eq_ok_iff {row : ZoneRow} {after : Table} : table.putRow row = .ok after ↔
    (table.closed = false ∧ ∀ other ∈ table.zones, other.name = row.name → other.id = row.id) ∧
      after = if table.contains row.id then table.rewrite row.id (replacement · row)
        else { table with zones := table.zones ++ [row] } := by
  obtain ⟨zones, records, closed⟩ := table
  have clash : (zones.any fun other => other.name == row.name && other.id != row.id) = true ↔
      ¬ ∀ other ∈ zones, other.name = row.name → other.id = row.id := by
    simp
  unfold putRow guard
  cases closed with
  | true => simp
  | false =>
      dsimp only
      rw [if_neg Bool.false_ne_true, ok_bind]
      by_cases taken : (zones.any fun other => other.name == row.name && other.id != row.id) = true
      · rw [if_pos taken]
        constructor
        · intro refused
          cases refused
        · rintro ⟨⟨-, free⟩, -⟩
          exact absurd free (clash.mp taken)
      · have free := not_not.mp (mt clash.mpr taken)
        have written : ∀ made : Table, (pure made : Except Fault Table) = .ok after ↔
            (false = false ∧ ∀ other ∈ zones, other.name = row.name → other.id = row.id) ∧
              after = made := fun made =>
          ⟨fun same => ⟨⟨rfl, free⟩, (Except.ok.inj same).symm⟩, fun same => same.2 ▸ rfl⟩
        rw [if_neg taken]
        unfold contains rewrite
        split
        · exact written _
        · exact written _

end Table

/-! ### Two calls about one zone -/

structure Overlap where
  caller : Caller
  zone : Zone
  verdict : Status
  serial : UInt32
  now : Timestamp

inductive Delivery where
  | started
  | read (judged : Zone × Bool)
  | ended

structure Overlap.Stage where
  table : Table
  delivery : Delivery
  created : Bool

namespace Overlap

variable (calls : Overlap) {table final : Table}

def report : Report := ⟨calls.zone.id, calls.verdict, calls.serial⟩

def judge (zone : Zone) : Zone × Bool := zone.judged calls.verdict calls.serial calls.now

/-- The tables after the creation, which leaves them alone when it is refused. -/
def create (table : Table) : Table :=
  match table.createZone calls.caller calls.zone with
  | .ok after => after
  | .error _ => table

/-- The tables after the whole delivery, which leaves them alone when it fails. -/
def deliver (table : Table) : Table :=
  match table.deliver calls.report calls.now with
  | .ok after => after
  | .error _ => table

def read (table : Table) : Delivery :=
  match table.fetchZone calls.zone.id with
  | .ok (some held) => .read (calls.judge held)
  | _ => .ended

inductive Step : Stage → Stage → Prop
  | create (table : Table) (delivery : Delivery) :
      Step ⟨table, delivery, false⟩ ⟨calls.create table, delivery, true⟩
  | read (table : Table) (created : Bool) :
      Step ⟨table, .started, created⟩ ⟨table, calls.read table, created⟩
  | write (table : Table) (judged : Zone × Bool) (created : Bool) :
      Step ⟨table, .read judged, created⟩ ⟨table.settle judged, .ended, created⟩

def Leaves (table final : Table) : Prop :=
  Relation.ReflTransGen calls.Step ⟨table, .started, false⟩ ⟨final, .ended, true⟩

def finish (delivery : Delivery) (table : Table) : Table :=
  match delivery with
  | .started => calls.deliver table
  | .read judged => table.settle judged
  | .ended => table

/-- The tables when the creation falls between reading the zone and writing it. -/
def overlapped (table : Table) : Table := calls.finish (calls.read table) (calls.create table)

theorem read_of_fetched {held : Zone} (fetched : table.fetchZone calls.zone.id = .ok (some held)) :
    calls.read table = .read (calls.judge held) := by
  rw [read, fetched]

theorem finish_read (table : Table) :
    calls.finish (calls.read table) table = calls.deliver table := by
  unfold read deliver Table.deliver
  cases fetched : table.fetchZone calls.zone.id with
  | error fault => simp [report, fetched, finish]
  | ok found =>
      cases found with
      | none => simp [report, fetched, finish, throw, throwThe, MonadExceptOf.throw]
      | some held => simp [report, fetched, finish, judge, pure, Except.pure]

def Outcome (stage : Stage) (final : Table) : Prop :=
  match stage.created with
  | true => final = calls.finish stage.delivery stage.table
  | false => final = calls.finish stage.delivery (calls.create stage.table) ∨
      final = calls.create (calls.finish stage.delivery stage.table) ∨
        stage.delivery = .started ∧ final = calls.overlapped stage.table

theorem read_ne_started (table : Table) : calls.read table ≠ .started := by
  unfold read
  split
  · exact Delivery.noConfusion
  · exact Delivery.noConfusion

theorem Outcome.of_step {stage next : Stage} (step : calls.Step stage next)
    (outcome : calls.Outcome next final) : calls.Outcome stage final := by
  cases step with
  | create table delivery => exact .inl outcome
  | read table created =>
      cases created with
      | true => exact outcome.trans (calls.finish_read table)
      | false =>
          rcases outcome with between | after | ⟨unread, -⟩
          · exact .inr (.inr ⟨rfl, between⟩)
          · exact .inr (.inl (after.trans (congrArg calls.create (calls.finish_read table))))
          · exact absurd unread (calls.read_ne_started table)
  | write table judged created =>
      cases created with
      | true => exact outcome
      | false =>
          rcases outcome with after | after | ⟨unread, -⟩
          · exact .inr (.inl after)
          · exact .inr (.inl after)
          · cases unread

theorem Outcome.of_run {stage : Stage}
    (run : Relation.ReflTransGen calls.Step stage ⟨final, .ended, true⟩) :
    calls.Outcome stage final := by
  induction run using Relation.ReflTransGen.head_induction_on with
  | refl => rfl
  | head step _rest ih => exact ih.of_step calls step

theorem run_finish (table : Table) (delivery : Delivery) (created : Bool) :
    Relation.ReflTransGen calls.Step ⟨table, delivery, created⟩
      ⟨calls.finish delivery table, .ended, created⟩ := by
  have begun : ∀ delivery, delivery ≠ .started → Relation.ReflTransGen calls.Step
      ⟨table, delivery, created⟩ ⟨calls.finish delivery table, .ended, created⟩ := by
    intro delivery read
    cases delivery with
    | started => exact absurd rfl read
    | read judged => exact .single (.write table judged created)
    | ended => exact .refl
  cases delivery with
  | started =>
      have rest := begun _ (calls.read_ne_started table)
      rw [finish_read] at rest
      exact .head (.read table created) rest
  | read judged => exact begun _ Delivery.noConfusion
  | ended => exact .refl

theorem leaves_iff : calls.Leaves table final ↔
    final = calls.deliver (calls.create table) ∨ final = calls.create (calls.deliver table) ∨
      final = calls.overlapped table := by
  constructor
  · intro run
    rcases Outcome.of_run calls run with after | before | ⟨-, between⟩
    · exact .inl after
    · exact .inr (.inl before)
    · exact .inr (.inr between)
  · rintro (rfl | rfl | rfl)
    · exact .head (.create table .started) (calls.run_finish (calls.create table) .started true)
    · exact (calls.run_finish table .started false).tail (.create (calls.deliver table) .ended)
    · have rest := calls.run_finish (calls.create table) (calls.read table) true
      exact .head (.read table false) (.head (.create table (calls.read table)) rest)

/-! ### When the overlap makes no difference -/

/-- The verdict makes the same of the zone from before as of the new one, or makes it what the new
one is already. -/
def Indifferent (held : Zone) : Prop :=
  ((calls.judge held).2 = (calls.judge calls.zone).2 ∧
    ((calls.judge held).2 = false →
      reported (calls.judge held).1 = reported (calls.judge calls.zone).1)) ∨
  ((calls.judge held).2 = false ∧ reported (calls.judge held).1 = reported calls.zone)

/-- Where the zone is held and the creation is accepted, the verdict is indifferent. -/
def Harmless (table : Table) : Prop :=
  ∀ held created, table.fetchZone calls.zone.id = .ok (some held) →
    table.createZone calls.caller calls.zone = .ok created → calls.Indifferent held

theorem deliver_of_fetched {held : Zone}
    (fetched : table.fetchZone calls.zone.id = .ok (some held)) :
    calls.deliver table = table.settle (calls.judge held) := by
  rw [← finish_read, read_of_fetched calls fetched]
  rfl

theorem overlapped_of_unread
    (unread : ∀ held, table.fetchZone calls.zone.id ≠ .ok (some held)) :
    calls.overlapped table = calls.create (calls.deliver table) := by
  have ended : calls.read table = .ended := by
    unfold read
    split
    · next held fetched => exact absurd fetched (unread held)
    · rfl
  rw [← finish_read, overlapped, ended]
  rfl

theorem overlapped_of_refused (refused : calls.create table = table) :
    calls.overlapped table = calls.deliver (calls.create table) := by
  rw [overlapped, refused, finish_read]

def renewed (row : ZoneRow) : ZoneRow :=
  Table.replacement row (ZoneRow.ofZone calls.caller.tenant? calls.zone)

theorem amended_renewed_eq_iff (zone : Zone) (row : ZoneRow) :
    (calls.renewed row).amended zone = calls.renewed row ↔ reported zone = reported calls.zone :=
  ZoneRow.amended_eq_amended_iff zone calls.zone (calls.renewed row)

theorem renewed_amended (zone : Zone) (row : ZoneRow) :
    calls.renewed (row.amended zone) = calls.renewed row := rfl

theorem settle_judge (table : Table) {zone : Zone} (sameId : zone.id = calls.zone.id) :
    table.settle (calls.judge zone) =
      if (calls.judge zone).2 then table.purge calls.zone.id
      else table.rewrite calls.zone.id (ZoneRow.amended (calls.judge zone).1) := by
  have judgedId : (calls.judge zone).1.id = calls.zone.id := (judged_id _ _ _ _).trans sameId
  rw [Table.settle, judgedId, Table.amend_eq_rewrite, judgedId]

variable {held : Zone} {created : Table}

theorem held_id (fetched : table.fetchZone calls.zone.id = .ok (some held)) :
    held.id = calls.zone.id := by
  obtain ⟨-, row, found, read⟩ := Table.fetchZone_eq_some_iff.mp fetched
  have tested := List.find?_some found
  exact (Table.toZone_id read).trans (eq_of_beq tested)

theorem contains_of_fetched (fetched : table.fetchZone calls.zone.id = .ok (some held)) :
    table.contains calls.zone.id = true := by
  obtain ⟨-, row, found, -⟩ := Table.fetchZone_eq_some_iff.mp fetched
  have tested := List.find?_some found
  exact List.any_eq_true.mpr ⟨row, List.mem_of_find?_eq_some found, tested⟩

theorem create_of_accepted (accepted : table.createZone calls.caller calls.zone = .ok created)
    {other : Table} (opened : other.closed = table.closed)
    (names : ∀ row ∈ other.zones, ∃ origin ∈ table.zones,
      row.name = origin.name ∧ row.id = origin.id) :
    calls.create other = if other.contains calls.zone.id
      then other.rewrite calls.zone.id calls.renewed
      else { other with
        zones := other.zones ++ [ZoneRow.ofZone calls.caller.tenant? calls.zone] } := by
  obtain ⟨unlocked, free⟩ := (Table.putRow_eq_ok_iff.mp accepted).1
  have again := Table.putRow_eq_ok_iff.mpr ⟨⟨opened.trans unlocked, fun row member sameName => by
    obtain ⟨origin, held, name, id⟩ := names row member
    exact id.trans (free origin held (name.symm.trans sameName))⟩, rfl⟩
  rw [create, Table.createZone, again]
  rfl

theorem create_eq_renewed (fetched : table.fetchZone calls.zone.id = .ok (some held))
    (accepted : table.createZone calls.caller calls.zone = .ok created) :
    calls.create table = table.rewrite calls.zone.id calls.renewed := by
  rw [calls.create_of_accepted accepted rfl fun row member => ⟨row, member, rfl, rfl⟩,
    if_pos (calls.contains_of_fetched fetched)]

theorem overlapped_eq (fetched : table.fetchZone calls.zone.id = .ok (some held))
    (accepted : table.createZone calls.caller calls.zone = .ok created) :
    calls.overlapped table = if (calls.judge held).2 then table.purge calls.zone.id
      else table.rewrite calls.zone.id (ZoneRow.amended (calls.judge held).1 ∘ calls.renewed) := by
  have keeps : ∀ row : ZoneRow, row.id = calls.zone.id → (calls.renewed row).id = calls.zone.id :=
    fun _row _mine => rfl
  rw [overlapped, read_of_fetched calls fetched, calls.create_eq_renewed fetched accepted, finish,
    calls.settle_judge _ (calls.held_id fetched), Table.purge_rewrite keeps,
    Table.rewrite_rewrite keeps]

theorem deliver_create_eq (fetched : table.fetchZone calls.zone.id = .ok (some held))
    (accepted : table.createZone calls.caller calls.zone = .ok created) :
    calls.deliver (calls.create table) = if (calls.judge calls.zone).2
      then table.purge calls.zone.id
      else table.rewrite calls.zone.id
        (ZoneRow.amended (calls.judge calls.zone).1 ∘ calls.renewed) := by
  have keeps : ∀ row : ZoneRow, row.id = calls.zone.id → (calls.renewed row).id = calls.zone.id :=
    fun _row _mine => rfl
  obtain ⟨reread, again, sameId, sameJudged⟩ : ∃ reread,
      (table.rewrite calls.zone.id calls.renewed).fetchZone calls.zone.id = .ok (some reread) ∧
        reread.id = calls.zone.id ∧ calls.judge reread = calls.judge calls.zone := by
    obtain ⟨unlocked, row, found, -⟩ := Table.fetchZone_eq_some_iff.mp fetched
    refine ⟨_, Table.fetchZone_eq_some_iff.mpr ⟨unlocked, calls.renewed row,
      Table.find?_rewrite keeps found, ZoneRow.toZone_replacement row _ _⟩, rfl, ?_⟩
    exact judged_touched _ _ _ _ _
  rw [calls.create_eq_renewed fetched accepted, deliver_of_fetched calls again,
    calls.settle_judge _ sameId, sameJudged, Table.purge_rewrite keeps,
    Table.rewrite_rewrite keeps]

theorem create_deliver_eq (fetched : table.fetchZone calls.zone.id = .ok (some held))
    (accepted : table.createZone calls.caller calls.zone = .ok created) :
    calls.create (calls.deliver table) = if (calls.judge held).2
      then { table.purge calls.zone.id with
        zones := (table.purge calls.zone.id).zones ++
          [ZoneRow.ofZone calls.caller.tenant? calls.zone] }
      else table.rewrite calls.zone.id calls.renewed := by
  rw [deliver_of_fetched calls fetched, calls.settle_judge _ (calls.held_id fetched)]
  split
  · have opened : (table.purge calls.zone.id).closed = table.closed := rfl
    rw [calls.create_of_accepted accepted opened fun row member =>
      ⟨row, (List.mem_filter.mp member).1, rfl, rfl⟩, Table.contains_purge]
    simp
  · have keeps : ∀ row : ZoneRow, row.id = calls.zone.id →
        (row.amended (calls.judge held).1).id = calls.zone.id := fun _row mine => mine
    have opened : (table.rewrite calls.zone.id
        (ZoneRow.amended (calls.judge held).1)).closed = table.closed := rfl
    rw [calls.create_of_accepted accepted opened, Table.contains_rewrite keeps,
      if_pos (calls.contains_of_fetched fetched), Table.rewrite_rewrite keeps]
    · exact congrArg (table.rewrite calls.zone.id)
        (funext (calls.renewed_amended (calls.judge held).1))
    · intro row member
      obtain ⟨origin, inside, rfl⟩ := List.mem_map.mp member
      refine ⟨origin, inside, ?_⟩
      split
      · exact ⟨rfl, rfl⟩
      · exact ⟨rfl, rfl⟩

/-- Where the zone is held and the creation is accepted, the overlap leaves zones that one of the
two orders leaves only when the verdict is indifferent. -/
theorem overlapped_zones_iff (fetched : table.fetchZone calls.zone.id = .ok (some held))
    (accepted : table.createZone calls.caller calls.zone = .ok created) :
    ((calls.overlapped table).zones = (calls.deliver (calls.create table)).zones ∨
        (calls.overlapped table).zones = (calls.create (calls.deliver table)).zones) ↔
      calls.Indifferent held := by
  have contained := calls.contains_of_fetched fetched
  have kept : ∀ zone, (table.rewrite calls.zone.id (ZoneRow.amended zone ∘ calls.renewed)).zones ≠
      (table.purge calls.zone.id).zones := fun _zone =>
    Table.rewrite_zones_ne_purge contained fun _row _mine => rfl
  have asJudged : ∀ zone other,
      (table.rewrite calls.zone.id (ZoneRow.amended zone ∘ calls.renewed)).zones =
          (table.rewrite calls.zone.id (ZoneRow.amended other ∘ calls.renewed)).zones ↔
        reported zone = reported other := fun zone other =>
    Table.rewrite_zones_eq_iff contained fun row =>
      ZoneRow.amended_eq_amended_iff zone other (calls.renewed row)
  have asCreated : ∀ zone,
      (table.rewrite calls.zone.id (ZoneRow.amended zone ∘ calls.renewed)).zones =
          (table.rewrite calls.zone.id calls.renewed).zones ↔
        reported zone = reported calls.zone := fun zone =>
    Table.rewrite_zones_eq_iff contained (calls.amended_renewed_eq_iff zone)
  rw [calls.overlapped_eq fetched accepted, calls.deliver_create_eq fetched accepted,
    calls.create_deliver_eq fetched accepted, Indifferent]
  cases stale : (calls.judge held).2 with
  | true =>
      cases fresh : (calls.judge calls.zone).2 with
      | true => simp
      | false => simp [(kept _).symm]
  | false =>
      cases fresh : (calls.judge calls.zone).2 with
      | true => simp [kept, asCreated]
      | false => simp [asJudged, asCreated]

/-- Whatever order the calls take their steps in, they leave zones that one call after the other
leaves as well, exactly when their overlap is harmless. -/
theorem serializable_iff_harmless (calls : Overlap) (table : Table) :
    (∀ final, calls.Leaves table final →
        final.zones = (calls.deliver (calls.create table)).zones ∨
          final.zones = (calls.create (calls.deliver table)).zones) ↔
      calls.Harmless table := by
  have onlyOverlap : (∀ final, calls.Leaves table final →
      final.zones = (calls.deliver (calls.create table)).zones ∨
        final.zones = (calls.create (calls.deliver table)).zones) ↔
      (calls.overlapped table).zones = (calls.deliver (calls.create table)).zones ∨
        (calls.overlapped table).zones = (calls.create (calls.deliver table)).zones := by
    simp only [leaves_iff, or_imp, forall_and, forall_eq, true_or, or_true, true_and]
  rw [onlyOverlap]
  constructor
  · intro serial held created fetched accepted
    exact (calls.overlapped_zones_iff fetched accepted).mp serial
  · intro harmless
    by_cases unread : ∀ held, table.fetchZone calls.zone.id ≠ .ok (some held)
    · exact .inr (congrArg Table.zones (calls.overlapped_of_unread unread))
    · simp only [not_forall, not_not] at unread
      obtain ⟨held, fetched⟩ := unread
      cases accepted : table.createZone calls.caller calls.zone with
      | error fault =>
          have refused : calls.create table = table := by rw [create, accepted]
          exact .inl (congrArg Table.zones (calls.overlapped_of_refused refused))
      | ok created =>
          exact (calls.overlapped_zones_iff fetched accepted).mpr
            (harmless held created fetched accepted)

/-- A deletion with a newer serial is requested while a failure of the update before it is being
delivered.  After either call and then the other the zone waits for its deletion, but after the
overlap it waits for the update again, with the older serial. -/
theorem deletion_overwritten :
    let table : Table :=
      { zones := [⟨"z", "example.com.", 10, "UPDATE", "PENDING", "default", none, 1700000000000⟩] }
    let calls : Overlap :=
      { caller := .admin
        zone := ⟨"z", "example.com.", 11, .delete, .error, "default", .ofMillis 1700000001000⟩
        verdict := .error
        serial := 10
        now := .ofMillis 1700000002000 }
    let shown := fun table : Table =>
      table.zones.map fun row => (row.serial, row.action, row.status)
    ∃ final, calls.Leaves table final ∧ shown final = [(10, "UPDATE", "ERROR")] ∧
      shown (calls.deliver (calls.create table)) = [(11, "DELETE", "ERROR")] ∧
      shown (calls.create (calls.deliver table)) = [(11, "DELETE", "ERROR")] ∧
      final.zones ≠ (calls.deliver (calls.create table)).zones ∧
      final.zones ≠ (calls.create (calls.deliver table)).zones := by
  intro table calls shown
  have left : calls.Leaves table (calls.overlapped table) :=
    calls.leaves_iff.mpr (.inr (.inr rfl))
  have between : shown (calls.overlapped table) = [(10, "UPDATE", "ERROR")] := by decide +kernel
  have after : shown (calls.deliver (calls.create table)) = [(11, "DELETE", "ERROR")] := by
    decide +kernel
  have before : shown (calls.create (calls.deliver table)) = [(11, "DELETE", "ERROR")] := by
    decide +kernel
  have apart : ∀ other, shown other = [(11, "DELETE", "ERROR")] →
      (calls.overlapped table).zones ≠ other.zones := by
    intro other newer same
    have alike : shown (calls.overlapped table) = shown other := by
      unfold shown
      rw [same]
    rw [between, newer] at alike
    exact absurd alike (by decide)
  exact ⟨_, left, between, after, before, apart _ after, apart _ before⟩

end Overlap

end ZonePropagation.Registry
