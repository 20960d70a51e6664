import ZonePropagation.Proofs.Interleaving.Stages
import ZonePropagation.Proofs.Interleaving.Traces
import ZonePropagation.Proofs.Registry.Selection
/-!
The zones that the timers pick.

The registry of a process gives the least recently updated zones first, up to a limit.  Recovery
asks it twice, and leaves the second question what remains of the limit after the first one.
-/

namespace ZonePropagation

namespace Zone

theorem mem_take_filter_iff {α : Type} {test : α → Bool} {items : List α} {item : α}
    (distinct : items.Nodup) (limit : Nat) :
    item ∈ (items.filter test).take limit ↔ ∃ before after, items = before ++ item :: after ∧
      test item = true ∧ before.countP test < limit := by
  constructor
  · intro taken
    obtain ⟨before, after, split⟩ := List.append_of_mem
      (List.mem_filter.mp (List.mem_of_mem_take taken)).1
    have chosen := (List.mem_filter.mp (List.mem_of_mem_take taken)).2
    refine ⟨before, after, split, chosen, ?_⟩
    rw [split, List.filter_append, List.filter_cons_of_pos chosen, List.take_append] at taken
    rw [split, List.nodup_append] at distinct
    rcases List.mem_append.mp taken with early | late
    · have member := (List.mem_filter.mp (List.mem_of_mem_take early)).1
      exact absurd rfl (distinct.2.2 item member item (by simp))
    · rw [List.countP_eq_length_filter]
      by_contra full
      rw [Nat.sub_eq_zero_of_le (by omega), List.take_zero] at late
      cases late
  · rintro ⟨before, after, rfl, chosen, room⟩
    rw [List.filter_append, List.filter_cons_of_pos chosen, List.take_append]
    rw [List.countP_eq_length_filter] at room
    obtain ⟨left, some_⟩ := Nat.exists_eq_add_of_lt room
    have more : limit - (before.filter test).length = left + 1 := by omega
    rw [more, List.take_succ_cons]
    simp

def oldest (zones : List Zone) (test : Zone → Bool) (limit : Nat) : List Zone :=
  ((byTime zones).filter test).take limit

variable {zones : List Zone} {test : Zone → Bool} {limit : Nat}

theorem mem_oldest_iff (times : (zones.map updatedAt).Nodup) {zone : Zone} :
    zone ∈ oldest zones test limit ↔ zone ∈ zones ∧ test zone = true ∧
      (zones.countP fun other => decide (other.Older zone) && test other) < limit := by
  have distinct : (byTime zones).Nodup :=
    (byTime_perm zones).nodup_iff.mpr (List.Nodup.of_map _ times)
  rw [oldest, mem_take_filter_iff distinct]
  constructor
  · rintro ⟨before, after, split, passes, room⟩
    rw [countP_before times split] at room
    exact ⟨(byTime_perm zones).mem_iff.mp (by simp [split]), passes, room⟩
  · rintro ⟨listed, passes, room⟩
    obtain ⟨before, after, split⟩ := List.append_of_mem ((byTime_perm zones).mem_iff.mpr listed)
    rw [← countP_before times split] at room
    exact ⟨before, after, split, passes, room⟩

/-- The zones taken are the least recently updated of those that qualify, as many as the
limit allows. -/
structure Taken (zones : List Zone) (qualifies : Zone → Prop) (limit : Nat) (taken : List Zone) :
    Prop where
  few : taken.length ≤ limit
  listed : ∀ zone ∈ taken, zone ∈ zones
  chosen : ∀ zone ∈ taken, qualifies zone
  ordered : taken.Pairwise Older
  complete : taken.length < limit → ∀ zone ∈ zones, qualifies zone → zone ∈ taken
  oldest : ∀ newer ∈ taken, ∀ zone ∈ zones, qualifies zone → zone.Older newer → zone ∈ taken

theorem oldest_taken (times : (zones.map updatedAt).Nodup) {qualifies : Zone → Prop}
    (tested : ∀ zone ∈ zones, test zone = true ↔ qualifies zone) :
    Taken zones qualifies limit (oldest zones test limit) where
  few := List.length_take_le ..
  listed := fun zone member => ((mem_oldest_iff times).mp member).1
  chosen := by
    intro zone member
    obtain ⟨listed, passes, -⟩ := (mem_oldest_iff times).mp member
    exact (tested zone listed).mp passes
  ordered := ((byTime_pairwise times).filter test).take
  complete := by
    intro room zone listed passes
    have all : oldest zones test limit = (byTime zones).filter test := by
      refine List.take_of_length_le ?_
      rw [oldest, List.length_take] at room
      omega
    rw [all]
    exact List.mem_filter.mpr
      ⟨(byTime_perm zones).mem_iff.mpr listed, (tested zone listed).mpr passes⟩
  oldest := by
    intro newer member zone listed passes older
    obtain ⟨-, -, room⟩ := (mem_oldest_iff times).mp member
    refine (mem_oldest_iff times).mpr
      ⟨listed, (tested zone listed).mpr passes, lt_of_le_of_lt ?_ room⟩
    refine List.countP_mono_left fun other _ both => ?_
    rw [Bool.and_eq_true, decide_eq_true_iff] at both ⊢
    exact ⟨lt_trans both.1 older, both.2⟩

theorem Taken.nodup {qualifies : Zone → Prop} {taken : List Zone}
    (takes : Taken zones qualifies limit taken) : taken.Nodup :=
  takes.ordered.imp fun {_ _} older same => by
    subst same
    exact lt_irrefl _ older

end Zone

theorem Registry.Memory.findZones_eq_oldest {memory : Registry.Memory} {criterion : ZoneCriterion}
    {limit : Nat} (times : (memory.zones.map Zone.updatedAt).Nodup)
    (given : criterion.limit = some limit) :
    memory.findZones criterion = Zone.oldest memory.zones criterion.selects limit := by
  change criterion.limited (Zone.byTime (memory.zones.filter criterion.selects)) = _
  rw [Zone.byTime_filter times, ZoneCriterion.limited, given, Zone.oldest]

namespace ReconciliationPolicy

open Propagation

/-! ### Zones to recover -/

def IsStuck (policy : ReconciliationPolicy) (now : Timestamp) (zone : Zone) : Prop :=
  zone.status = .pending ∧ zone.updatedAt < now.earlier policy.pendingGrace

structure Recovers (policy : ReconciliationPolicy) (now : Timestamp) (zones found : List Zone) :
    Prop where
  few : found.length ≤ policy.maxZones
  distinct : found.Nodup
  listed : ∀ zone ∈ found, zone ∈ zones
  ordered : ∃ failed stuck, found = failed ++ stuck ∧
    (∀ zone ∈ failed, zone.status = .error) ∧ (∀ zone ∈ stuck, policy.IsStuck now zone) ∧
      failed.Pairwise Zone.Older ∧ stuck.Pairwise Zone.Older
  complete : found.length < policy.maxZones →
    ∀ zone ∈ zones, zone.status = .error ∨ policy.IsStuck now zone → zone ∈ found
  failedFirst : (∃ zone ∈ found, zone.status = .pending) →
    ∀ zone ∈ zones, zone.status = .error → zone ∈ found
  failedOldest : ∀ newer ∈ found, newer.status = .error →
    ∀ zone ∈ zones, zone.status = .error → zone.Older newer → zone ∈ found
  stuckOldest : ∀ newer ∈ found, newer.status = .pending →
    ∀ zone ∈ zones, policy.IsStuck now zone → zone.Older newer → zone ∈ found

def failed (policy : ReconciliationPolicy) : ZoneCriterion :=
  { statuses := [.error], limit := some policy.maxZones }

def stuck (policy : ReconciliationPolicy) (now : Timestamp) (limit : Nat) : ZoneCriterion :=
  { statuses := [.pending], updatedBefore := some (now.ago policy.pendingGrace)
    limit := some limit }

theorem failed_selects (policy : ReconciliationPolicy) (zone : Zone) :
    policy.failed.selects zone = true ↔ zone.status = .error := by
  simp [failed, ZoneCriterion.selects, ZoneCriterion.holds]

theorem stuck_selects {policy : ReconciliationPolicy} {now : Timestamp} {zone : Zone}
    (representable : Timestamp.first ≤ zone.updatedAt) (limit : Nat) :
    (policy.stuck now limit).selects zone = true ↔ policy.IsStuck now zone := by
  have before := Timestamp.lt_ago_iff representable now policy.pendingGrace
  simp [stuck, ZoneCriterion.selects, ZoneCriterion.holds, IsStuck, before]

variable {memory : Registry.Memory}

def recoverable (policy : ReconciliationPolicy) (now : Timestamp) (memory : Registry.Memory) :
    List Zone :=
  let failed := memory.findZones policy.failed
  failed ++ memory.findZones (policy.stuck now (policy.maxZones - failed.length))

theorem recoverable_of_full {policy : ReconciliationPolicy}
    (full : policy.maxZones - (memory.findZones policy.failed).length = 0) (now : Timestamp) :
    policy.recoverable now memory = memory.findZones policy.failed := by
  have nothing : memory.findZones (policy.stuck now 0) = [] := rfl
  unfold recoverable
  dsimp only
  rw [full, nothing, List.append_nil]

theorem Recovers.of_taken {policy : ReconciliationPolicy} {now : Timestamp}
    {zones failed stuck : List Zone}
    (first : Zone.Taken zones (fun zone => zone.status = .error) policy.maxZones failed)
    (second : Zone.Taken zones (policy.IsStuck now) (policy.maxZones - failed.length) stuck) :
    policy.Recovers now zones (failed ++ stuck) := by
  have ofError {zone : Zone} (member : zone ∈ failed ++ stuck) (failing : zone.status = .error) :
      zone ∈ failed := by
    refine (List.mem_append.mp member).resolve_right fun late => ?_
    rw [(second.chosen zone late).1] at failing
    cases failing
  have ofPending {zone : Zone} (member : zone ∈ failed ++ stuck) (pending : zone.status = .pending) :
      zone ∈ stuck := by
    refine (List.mem_append.mp member).resolve_left fun early => ?_
    rw [first.chosen zone early] at pending
    cases pending
  have firstFew := first.few
  have secondFew := second.few
  refine ⟨?_, ?_, ?_, ⟨failed, stuck, rfl, first.chosen, second.chosen, first.ordered,
    second.ordered⟩, ?_, ?_, ?_, ?_⟩
  · rw [List.length_append]
    omega
  · refine List.nodup_append.mpr ⟨first.nodup, second.nodup, ?_⟩
    rintro zone early _ late rfl
    have failing := first.chosen zone early
    rw [(second.chosen zone late).1] at failing
    cases failing
  · intro zone member
    exact (List.mem_append.mp member).elim (first.listed zone) (second.listed zone)
  · intro room zone listed qualifies
    rw [List.length_append] at room
    rcases qualifies with failing | waiting
    · exact List.mem_append_left _ (first.complete (by omega) zone listed failing)
    · exact List.mem_append_right _ (second.complete (by omega) zone listed waiting)
  · rintro ⟨zone, member, pending⟩ other listed failing
    have some_ := List.length_pos_of_mem (ofPending member pending)
    exact List.mem_append_left _ (first.complete (by omega) other listed failing)
  · intro newer member failing zone listed alsoFailing older
    exact List.mem_append_left _
      (first.oldest newer (ofError member failing) zone listed alsoFailing older)
  · intro newer member pending zone listed waiting older
    exact List.mem_append_right _
      (second.oldest newer (ofPending member pending) zone listed waiting older)

theorem recoverable_recovers (policy : ReconciliationPolicy) (now : Timestamp)
    (times : (memory.zones.map Zone.updatedAt).Nodup)
    (representable : ∀ zone ∈ memory.zones, Timestamp.first ≤ zone.updatedAt) :
    policy.Recovers now memory.zones (policy.recoverable now memory) := by
  rw [recoverable, Registry.Memory.findZones_eq_oldest times rfl,
    Registry.Memory.findZones_eq_oldest times rfl]
  exact .of_taken (Zone.oldest_taken times fun zone _ => policy.failed_selects zone)
    (Zone.oldest_taken times fun zone listed => stuck_selects (representable zone listed) _)

section Run

variable {m : Type → Type} [Monad m] [LawfulMonad m] {channel : Provisioner.Channel m}
  {clock : Status.Clock} {surroundings : Surroundings}

theorem run_findZones (kept : surroundings.registry = .memory memory) (criterion : ZoneCriterion)
    (follow : Except Fault (List Zone) → Program (Except Fault (List Zone))) :
    (Task.run (Surroundings.answer channel clock)
      (.perform (.findZones criterion) follow)).run surroundings =
        (Task.run (Surroundings.answer channel clock)
          (follow (.ok (memory.findZones criterion)))).run surroundings := by
  rw [Task.run, StateT.run_bind]
  simp [Surroundings.answer, kept, Registry.Store.findZones]

theorem run_now (follow : Timestamp → Program (Except Fault (List Zone))) :
    (Task.run (Surroundings.answer channel clock) (.perform .now follow)).run surroundings =
      (Task.run (Surroundings.answer channel clock) (follow clock.now)).run
        surroundings := by
  rw [Task.run, StateT.run_bind]
  simp [Surroundings.answer]

theorem run_candidates (policy : ReconciliationPolicy)
    (kept : surroundings.registry = .memory memory) :
    (policy.candidates.run.run (Surroundings.answer channel clock)).run surroundings =
      pure (.ok (policy.recoverable clock.now memory), surroundings) := by
  refine (run_findZones kept policy.failed _).trans ?_
  change StateT.run (Task.run _ (ExceptT.run
    (if policy.maxZones - (memory.findZones policy.failed).length = 0
      then pure (memory.findZones policy.failed) else _))) surroundings = _
  split
  · next full =>
    rw [recoverable_of_full full]
    rfl
  · refine (run_now _).trans ((run_findZones kept (policy.stuck clock.now _) _).trans ?_)
    rfl

end Run

/-- The zones in error come first, and then the zones that have been pending for too long, each
the least recently updated first, up to the limit. -/
theorem candidates_recover {m : Type → Type} [Monad m] [LawfulMonad m]
    (channel : Provisioner.Channel m) (clock : Status.Clock) (policy : ReconciliationPolicy)
    {surroundings : Surroundings} (kept : surroundings.registry = .memory memory)
    (times : (memory.zones.map Zone.updatedAt).Nodup)
    (representable : ∀ zone ∈ memory.zones, Timestamp.first ≤ zone.updatedAt) :
    ∃ found, policy.Recovers clock.now memory.zones found ∧
      (policy.candidates.run.run (Surroundings.answer channel clock)).run surroundings =
        pure (.ok found, surroundings) :=
  ⟨_, policy.recoverable_recovers clock.now times representable, policy.run_candidates kept⟩

/-- One zone in error leaves room for one of two stuck zones, the one that is older by less than a
millisecond. -/
theorem candidates_recover_two :
    let zone (id : String) (status : ZoneStatus) (updatedAt : Timestamp) : Zone :=
      { id, name := id ++ ".", serial := 1, action := .update, status, poolId := "p", updatedAt }
    let zones := [zone "a" .pending ⟨1, 500⟩, zone "b" .error ⟨4, 0⟩, zone "c" .pending ⟨1, 499⟩,
      zone "d" .pending ⟨5, 0⟩, zone "e" .active ⟨2, 0⟩]
    let policy : ReconciliationPolicy := { pendingGrace := 4, maxZones := 2 }
    policy.Recovers ⟨9, 0⟩ zones [zone "b" .error ⟨4, 0⟩, zone "c" .pending ⟨1, 499⟩] := by
  intro zone zones policy
  let surroundings : Surroundings := { status := .memory { ttl := 0 }, registry := .memory { zones } }
  obtain ⟨found, recovers, ran⟩ := candidates_recover Interleaving.silence
    { elapsed := 0, now := ⟨9, 0⟩ } policy
    (show surroundings.registry = _ from rfl) (by decide +kernel) (by decide +kernel)
  have picked : policy.recoverable ⟨9, 0⟩ { zones } =
      [zone "b" .error ⟨4, 0⟩, zone "c" .pending ⟨1, 499⟩] := by cbv
  rw [run_candidates policy rfl] at ran
  have same := congrArg (fun outcome => (outcome.run ()).1.1) ran
  cases same
  exact picked ▸ recovers

/-! ### Zones to sync -/

def inWindow (policy : ReconciliationPolicy) (now : Timestamp) (zone : Zone) : Bool :=
  policy.syncWindow.all fun seconds => now.ago seconds < zone.updatedAt

def isDue (policy : ReconciliationPolicy) (now : Timestamp) (zone : Zone) : Bool :=
  policy.inWindow now zone && zone.action != .delete

/-- In the window, this many zones were updated before the zone, pending deletions among them. -/
def ahead (policy : ReconciliationPolicy) (now : Timestamp) (zones : List Zone) (zone : Zone) :
    Nat :=
  zones.countP fun other => decide (other.Older zone) && policy.inWindow now other

/-- The work is what sync makes of zones at a moment.  It takes the zones that are due as far as the
limit goes exactly when it takes all of them, or when no deletion in the window comes before the
limit. -/
structure Syncs (policy : ReconciliationPolicy) (now : Timestamp) (zones work : List Zone) :
    Prop where
  picked : ∀ zone, zone ∈ work ↔ zone ∈ zones ∧ policy.isDue now zone = true ∧
    policy.ahead now zones zone < policy.maxZones
  ordered : work.Pairwise Zone.Older
  full_iff : Zone.Taken zones (fun zone => policy.isDue now zone = true) policy.maxZones work ↔
    (∀ zone ∈ zones, policy.isDue now zone = true → zone ∈ work) ∨
      ∀ zone ∈ zones, policy.inWindow now zone = true → zone.action = .delete →
        policy.maxZones ≤ policy.ahead now zones zone

def window (policy : ReconciliationPolicy) (now : Timestamp) : ZoneCriterion :=
  { updatedAfter := policy.syncWindow.map now.ago, limit := some policy.maxZones }

theorem window_selects (policy : ReconciliationPolicy) (now : Timestamp) :
    (policy.window now).selects = policy.inWindow now := by
  funext zone
  unfold inWindow
  cases given : policy.syncWindow with
  | none => simp [window, ZoneCriterion.selects, ZoneCriterion.holds, given]
  | some seconds => simp [window, ZoneCriterion.selects, ZoneCriterion.holds, given]

def syncable (policy : ReconciliationPolicy) (now : Timestamp) (memory : Registry.Memory) :
    List Zone :=
  (memory.findZones (policy.window now)).filter fun zone => zone.action != .delete

theorem syncable_syncs (policy : ReconciliationPolicy) (now : Timestamp)
    (times : (memory.zones.map Zone.updatedAt).Nodup) :
    policy.Syncs now memory.zones (policy.syncable now memory) := by
  rw [syncable, Registry.Memory.findZones_eq_oldest times rfl, window_selects]
  have seen (zone : Zone) : zone ∈ Zone.oldest memory.zones (policy.inWindow now) policy.maxZones ↔
      zone ∈ memory.zones ∧ policy.inWindow now zone = true ∧
        policy.ahead now memory.zones zone < policy.maxZones := Zone.mem_oldest_iff times
  have window : Zone.Taken memory.zones (fun zone => policy.inWindow now zone = true)
      policy.maxZones (Zone.oldest memory.zones (policy.inWindow now) policy.maxZones) :=
    Zone.oldest_taken times fun zone _ => Iff.rfl
  generalize Zone.oldest memory.zones (policy.inWindow now) policy.maxZones = found at seen window
  have picked (zone : Zone) : zone ∈ found.filter (fun zone => zone.action != .delete) ↔
      zone ∈ memory.zones ∧ policy.isDue now zone = true ∧
        policy.ahead now memory.zones zone < policy.maxZones := by
    rw [List.mem_filter, seen, isDue, Bool.and_eq_true]
    constructor
    · rintro ⟨⟨listed, within, room⟩, stays⟩
      exact ⟨listed, ⟨within, stays⟩, room⟩
    · rintro ⟨listed, ⟨within, stays⟩, room⟩
      exact ⟨⟨listed, within, room⟩, stays⟩
  refine ⟨picked, window.ordered.filter _, ?_, ?_⟩
  · intro taken
    refine or_iff_not_imp_left.mpr fun some_ zone listed within deletion => ?_
    push Not at some_
    obtain ⟨missed, missedListed, due, leftOut⟩ := some_
    have full : policy.maxZones ≤ (found.filter fun zone => zone.action != .delete).length :=
      not_lt.mp fun room => leftOut (taken.complete room missed missedListed due)
    have kept := List.length_filter_eq_length_iff.mp
      (le_antisymm (List.length_filter_le _ _) (window.few.trans full))
    by_contra room
    have stays := kept zone ((seen zone).mpr ⟨listed, within, not_le.mp room⟩)
    rw [deletion] at stays
    cases stays
  · intro whole
    have due {zone : Zone} (passes : policy.isDue now zone = true) :=
      Bool.and_eq_true_iff.mp passes
    have kept : (∀ zone ∈ memory.zones, policy.isDue now zone = true →
        zone ∈ found.filter fun zone => zone.action != .delete) ∨
          found.filter (fun zone => zone.action != .delete) = found := by
      refine whole.imp_right fun late => List.filter_eq_self.mpr fun zone member => ?_
      obtain ⟨listed, within, room⟩ := (seen zone).mp member
      exact bne_iff_ne.mpr fun deletion =>
        absurd room (not_lt.mpr (late zone listed within deletion))
    refine ⟨(List.length_filter_le _ _).trans window.few, fun zone member =>
      ((picked zone).mp member).1, fun zone member => ((picked zone).mp member).2.1,
      window.ordered.filter _, ?_, ?_⟩
    · intro room zone listed passes
      rcases kept with all | same
      · exact all zone listed passes
      · rw [same] at room ⊢
        exact window.complete room zone listed (due passes).1
    · intro newer member zone listed passes older
      rcases kept with all | same
      · exact all zone listed passes
      · rw [same] at member ⊢
        exact window.oldest newer member zone listed (due passes).1 older

end ReconciliationPolicy

namespace Propagation

def handling : Timer → Zone → Operation
  | .recovery, zone => .recover zone
  | .sync, zone => .propagate zone .update

end Propagation

/-! ### Runs of sync -/

namespace Interleaving

open Propagation

theorem exists_run {α : Type} {program : Program α}
    (free : Only (fun effect => ∀ lock, effect ≠ .acquire lock) program) (before : Surroundings) :
    ∃ events value after, Traces program events value ∧ Leads anytime before events after := by
  induction program generalizing before with
  | done value => exact ⟨[], value, before, .done, .nil⟩
  | perform effect next ih =>
      obtain ⟨reply, between, answer⟩ := Answers.exists_reply before effect
        fun lock same => absurd same (free.1 lock)
      obtain ⟨events, value, after, trace, leads⟩ := ih reply (free.2 reply) between
      exact ⟨_, value, after, .perform trace,
        Leads.append_iff.mpr ⟨between, .cons .nil answer, leads⟩⟩

end Interleaving

namespace ReconciliationPolicy

open Propagation Interleaving

variable {memory : Registry.Memory}

def summarize (timer : Timer) (results : List Result) : Program TickSummary := do
  results.forM fun result => Propagation.measure (.reconciled timer result.isSuccess)
  return {
    processed := results.length
    failed := results.countP fun result => !result.isSuccess }

theorem summarize_yields (timer : Timer) (results : List Result) :
    Yields (fun _ summary => summary.processed = results.length) (summarize timer results) := by
  have measures : ∀ counted : List Result, Yields (fun _ _ => True)
      (counted.forM fun result => Propagation.measure (.reconciled timer result.isSuccess)) := by
    intro counted
    induction counted with
    | nil => exact .pure trivial
    | cons result rest ih => exact (Yields.perform rfl).bind fun _ _ _ => ih
  exact (measures results).bind fun _ _ _ => .pure rfl

def selection (policy : ReconciliationPolicy) : Timer → Fallible (List Zone)
  | .recovery => policy.candidates
  | .sync => policy.syncZones

def closing (policy : ReconciliationPolicy) : Timer → List Result → Program TickSummary
  | .recovery, results => summarize .recovery results
  | .sync, results => do
      let summary ← summarize .sync results
      return { summary with reaped := ← reapRows policy.statusTtl }

def carryOut (policy : ReconciliationPolicy) (timer : Timer) (zones : List Zone) :
    Program TickSummary := do
  let results ← perform (.fork batchWidth (zones.map (handling timer)))
  policy.closing timer results

theorem tick_eq (policy : ReconciliationPolicy) (timer : Timer) :
    policy.tick timer = policy.selection timer >>= fun zones => policy.carryOut timer zones := by
  cases timer with
  | recovery => rfl
  | sync =>
      change policy.syncZones >>= _ = policy.syncZones >>= _
      congr 1
      funext zones
      unfold carryOut batch closing summarize
      simp only [liftM_bind, bind_assoc, liftM_pure]
      rfl

theorem closing_yields (policy : ReconciliationPolicy) (timer : Timer) (results : List Result) :
    Yields (fun _ summary => summary.processed = results.length) (policy.closing timer results) := by
  cases timer with
  | recovery => exact summarize_yields .recovery results
  | sync =>
      have reaps : Yields (fun _ _ => True) (reapRows policy.statusTtl) :=
        (Yields.perform rfl).bind fun _ _ _ => .pure trivial
      apply (summarize_yields .sync results).bind
      intro earlier summary same
      exact reaps.bind fun _ _ _ => .pure same

theorem syncOnce_run (policy : ReconciliationPolicy) {initial final : Surroundings}
    (kept : initial.registry = .memory memory) {events : List Event}
    {outcome : Except Fault TickSummary} (trace : Traces policy.syncOnce.run events outcome)
    (leads : Leads anytime initial events final) :
    ∃ now results summary, ⟨.now, now⟩ ∈ events ∧
      events.filter (fun event => isFork event.effect) = [⟨.fork batchWidth
        ((policy.syncable now memory).map fun zone => .propagate zone .update), results⟩] ∧
      outcome = .ok summary ∧ summary.processed = results.length := by
  rw [show policy.syncOnce = _ from policy.tick_eq .sync] at trace
  change Traces (.perform .now fun now => .perform (.findZones (policy.window now)) _) events
    outcome at trace
  cases trace with
  | @perform _ _ now later _ trace =>
  cases trace with
  | @perform _ _ found later _ trace =>
  obtain ⟨afterNow, first, leads⟩ := Leads.append_iff.mp leads
  obtain ⟨afterFind, second, -⟩ := Leads.append_iff.mp leads
  have still : afterNow.registry = .memory memory := by
    cases first with
    | cons start answer =>
        cases start
        rw [answer.unchanged.2.1 rfl, kept]
  have picked : found = .ok (memory.findZones (policy.window now)) := by
    cases second with
    | cons start answer =>
        cases start
        rw [answer.findZones.2, still]
        rfl
  subst picked
  change Traces (.perform (.fork batchWidth ((policy.syncable now memory).map fun zone =>
    .propagate zone .update)) fun results => Except.ok <$> policy.closing .sync results) later
      outcome at trace
  cases trace with
  | @perform _ _ results later _ trace =>
  have closes : Yields (fun _ (outcome : Except Fault TickSummary) => ∃ summary,
      outcome = .ok summary ∧ summary.processed = results.length)
        (Except.ok <$> policy.closing .sync results) := by
    apply (policy.closing_yields .sync results).bind
    exact fun _ summary same => .pure ⟨summary, rfl, same⟩
  obtain ⟨summary, ok, processed⟩ := closes.shown later outcome trace
  have plain := trace.plain closes.plain
  refine ⟨now, results, summary, by simp, ?_, ok, processed⟩
  have nothing : later.filter (fun event => isFork event.effect) = [] :=
    List.filter_eq_nil_iff.mpr fun event member => by simp [plain event member]
  rw [List.filter_append, List.filter_append, List.filter_append, nothing]
  rfl

theorem exists_syncOnce_run (policy : ReconciliationPolicy) (initial : Surroundings) :
    ∃ events outcome final, Traces policy.syncOnce.run events outcome ∧
      Leads anytime initial events final := by
  have picks : Only (fun effect => ∀ lock, effect ≠ .acquire lock) policy.syncZones.run :=
    (Only.lift (Only.perform nofun)).tries fun _ => (Only.perform nofun).tries fun _ => .pure _
  have works (work : List Operation) :
      Only (fun effect => ∀ lock, effect ≠ .acquire lock) (batch .sync work) :=
    (Only.perform nofun).bind fun _ =>
      (Only.forM fun _ _ => Only.perform nofun).bind fun _ => .pure _
  have reaps : Only (fun effect => ∀ lock, effect ≠ .acquire lock) (reapRows policy.statusTtl) :=
    (Only.perform nofun).bind fun _ => .pure _
  exact exists_run (picks.tries fun _ => (Only.lift (works _)).tries fun _ =>
    (Only.lift reaps).tries fun _ => .pure _) initial

/-- Sync updates the least recently updated zones of the window, as many as its limit, but for
pending deletions.  So it takes the zones that are due as far as the limit goes exactly when it
takes all of them, or when no deletion of the window comes before the limit. -/
theorem sync_work_iff (policy : ReconciliationPolicy) {initial : Surroundings}
    (kept : initial.registry = .memory memory)
    (times : (memory.zones.map Zone.updatedAt).Nodup) :
    (∃ events outcome final, Traces policy.syncOnce.run events outcome ∧
      Leads anytime initial events final) ∧
    ∀ events outcome final, Traces policy.syncOnce.run events outcome →
      Leads anytime initial events final →
      ∃ now work results summary, ⟨.now, now⟩ ∈ events ∧
        events.filter (fun event => isFork event.effect) =
          [⟨.fork batchWidth (work.map fun zone => .propagate zone .update), results⟩] ∧
        outcome = .ok summary ∧ summary.processed = results.length ∧
        policy.Syncs now memory.zones work := by
  refine ⟨policy.exists_syncOnce_run initial, fun events outcome final trace leads => ?_⟩
  obtain ⟨now, results, summary, read, forks, ok, processed⟩ := policy.syncOnce_run kept trace leads
  exact ⟨now, _, results, summary, read, forks, ok, processed, policy.syncable_syncs now times⟩

theorem sync_work_iff_deletion :
    let zone (id : String) (action : ZoneAction) (updatedAt : Timestamp) : Zone :=
      { id, name := id ++ ".", serial := 10, action, status := .active, poolId := "p", updatedAt }
    let zones := [zone "d" .delete ⟨1, 0⟩, zone "a" .none ⟨2, 0⟩, zone "b" .none ⟨3, 0⟩]
    let policy : ReconciliationPolicy := { maxZones := 2 }
    let initial : Surroundings := { status := .memory { ttl := 0 }, registry := .memory { zones } }
    ∃ (events : List Event) (outcome : Except Fault TickSummary) (final : Surroundings)
      (work : List Zone) (results : List Result), Traces policy.syncOnce.run events outcome ∧
      Leads anytime initial events final ∧
      events.filter (fun event => isFork event.effect) =
        [⟨.fork batchWidth (work.map fun zone => .propagate zone .update), results⟩] ∧
      zone "a" .none ⟨2, 0⟩ ∈ work ∧ zone "b" .none ⟨3, 0⟩ ∉ work := by
  intro zone zones policy initial
  obtain ⟨⟨events, outcome, final, trace, leads⟩, each⟩ :=
    sync_work_iff policy (show initial.registry = _ from rfl) (by decide +kernel)
  obtain ⟨now, work, results, -, -, forks, -, -, syncs⟩ := each events outcome final trace leads
  refine ⟨events, outcome, final, work, results, trace, leads, forks, ?_, ?_⟩
  · have room : policy.ahead now zones (zone "a" .none ⟨2, 0⟩) = 1 := rfl
    exact (syncs.picked _).mpr ⟨by simp [zones], rfl, room ▸ Nat.one_lt_two⟩
  · intro member
    have room := ((syncs.picked _).mp member).2.2
    have full : policy.ahead now zones (zone "b" .none ⟨3, 0⟩) = 2 := rfl
    exact absurd room (by rw [full]; decide)

/-- With room for one zone only, a pending deletion keeps sync from the one zone that is due. -/
theorem deletion_takes_room :
    let zone (id : String) (action : ZoneAction) (updatedAt : Timestamp) : Zone :=
      { id, name := id ++ ".", serial := 10, action, status := .active, poolId := "p", updatedAt }
    let zones := [zone "d" .delete ⟨1, 0⟩, zone "a" .none ⟨2, 0⟩]
    let policy : ReconciliationPolicy := { maxZones := 1 }
    let initial : Surroundings := { status := .memory { ttl := 0 }, registry := .memory { zones } }
    ∃ events outcome final now results, Traces policy.syncOnce.run events outcome ∧
      Leads anytime initial events final ∧ ⟨.now, now⟩ ∈ events ∧
      events.filter (fun event => isFork event.effect) = [⟨.fork batchWidth [], results⟩] ∧
      policy.isDue now (zone "a" .none ⟨2, 0⟩) = true ∧
      ¬Zone.Taken zones (fun zone => policy.isDue now zone = true) policy.maxZones [] := by
  intro zone zones policy initial
  obtain ⟨events, outcome, final, trace, leads⟩ := policy.exists_syncOnce_run initial
  obtain ⟨now, results, -, read, forks, -⟩ := policy.syncOnce_run rfl trace leads
  have picked : policy.syncable now { zones } = [] := by cbv
  rw [picked] at forks
  refine ⟨events, outcome, final, now, results, trace, leads, read, forks, rfl, fun taken => ?_⟩
  exact absurd (taken.complete Nat.zero_lt_one (zone "a" .none ⟨2, 0⟩) (by simp [zones]) rfl) (by simp)

end ReconciliationPolicy

end ZonePropagation
