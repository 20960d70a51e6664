import ZonePropagation.Proofs.Propagation.Inline
import ZonePropagation.Proofs.Propagation.Seclusion
import ZonePropagation.Proofs.Propagation.Selection
/-!
The batches of the timers.

A tick hands out an attempt for each zone that it picks, and counts those that failed.  When
nameservers and targets answer the same each time, no attempt changes what another one comes to: the
result for a zone and what is kept of it are those of an attempt on this zone alone.
-/

namespace ZonePropagation

/-! ### Zones that are picked -/

namespace Registry.Memory

variable {memory : Memory} {criterion : ZoneCriterion}

theorem mem_findZones {zone : Zone} (found : zone ∈ memory.findZones criterion) :
    zone ∈ memory.zones ∧ criterion.selects zone = true := by
  have among := (criterion.limited_sublist _).mem found
  rw [List.mem_mergeSort] at among
  exact List.mem_filter.mp among

theorem findZones_distinct (distinct : (memory.zones.map Zone.id).Nodup) :
    ((memory.findZones criterion).map Zone.id).Nodup := by
  have sorted := ((List.mergeSort_perm (memory.zones.filter criterion.selects)
    fun left right => left.updatedAt ≤ right.updatedAt).map Zone.id).nodup_iff
  have chosen : ((memory.zones.filter criterion.selects).map Zone.id).Nodup :=
    distinct.sublist (List.filter_sublist.map Zone.id)
  exact (sorted.mpr chosen).sublist ((criterion.limited_sublist _).map Zone.id)

end Registry.Memory

namespace ReconciliationPolicy

open Propagation Interleaving

variable {policy : ReconciliationPolicy} {memory : Registry.Memory}

def picked (policy : ReconciliationPolicy) : Timer → Timestamp → Registry.Memory → List Zone
  | .recovery => policy.recoverable
  | .sync => policy.syncable

theorem picked_distinct (distinct : (memory.zones.map Zone.id).Nodup) (timer : Timer)
    (moment : Timestamp) : ((policy.picked timer moment memory).map Zone.id).Nodup := by
  cases timer with
  | sync => exact (Registry.Memory.findZones_distinct distinct).sublist (List.filter_sublist.map _)
  | recovery =>
      change ((policy.recoverable moment memory).map Zone.id).Nodup
      unfold recoverable
      rw [List.map_append, List.nodup_append']
      refine ⟨Registry.Memory.findZones_distinct distinct,
        Registry.Memory.findZones_distinct distinct, ?_⟩
      intro id early late
      obtain ⟨failed, inFailed, rfl⟩ := List.mem_map.mp early
      obtain ⟨stuck, inStuck, same⟩ := List.mem_map.mp late
      obtain ⟨listed, inError⟩ := Registry.Memory.mem_findZones inFailed
      obtain ⟨alsoListed, inWaiting⟩ := Registry.Memory.mem_findZones inStuck
      obtain rfl := List.inj_on_of_nodup_map distinct alsoListed listed same
      have failing := (policy.failed_selects _).mp inError
      simp [ReconciliationPolicy.stuck, ZoneCriterion.selects, ZoneCriterion.holds, failing]
        at inWaiting

end ReconciliationPolicy

/-! ### Parts of a tick -/

namespace Propagation

def hasFailed : Except Fault Progress → Bool
  | .ok .backendsFailed => true
  | outcome => !outcome.isOk

theorem isSuccess_attempted (attempt : Except Fault Progress) :
    (Result.attempted attempt).isSuccess = !hasFailed attempt := by
  rcases attempt with fault | _ | _ | _
  · rfl
  · rfl
  · rfl
  · rfl

theorem countP_attempted (attempts : List (Except Fault Progress)) :
    (attempts.map Result.attempted).countP (fun result => !result.isSuccess) =
      attempts.countP hasFailed := by
  rw [List.countP_map]
  congr 1
  funext attempt
  simp [isSuccess_attempted]

theorem attempted_of_each {zones : List Zone} {results : List Result}
    {left : Zone → ZoneState → Prop} {last : Zone → ZoneState}
    {attempt : Zone → Except Fault Progress}
    (each : List.Forall₂ (fun zone result => ∃ state, left zone state ∧ state = last zone ∧
      result = .attempted (attempt zone)) zones results) :
    results = (zones.map attempt).map .attempted ∧ ∀ zone ∈ zones, left zone (last zone) := by
  induction each with
  | nil => exact ⟨rfl, nofun⟩
  | cons here _others ih =>
      obtain ⟨_, leaves, rfl, rfl⟩ := here
      obtain ⟨rfl, rest⟩ := ih
      exact ⟨rfl, List.forall_mem_cons.mpr ⟨leaves, rest⟩⟩

section Handling

open Interleaving

variable {manager : Manager} {behaviour : Behaviour} {timer : Timer} {zone : Zone}

theorem handling_confined (inline : manager.policy.detached = false) :
    Confined manager zone.id (manager.program (handling timer zone)) := by
  cases timer with
  | recovery => exact recover_confined inline
  | sync => exact propagate_confined inline .update

theorem handling_determined (inline : manager.policy.detached = false) (state : ZoneState) :
    ∃ attempt last, (secluded behaviour manager).Along
      (fun after result => after = last ∧ result = .attempted attempt)
      (manager.program (handling timer zone)) state := by
  have worked : ∃ work : Fallible Progress, Determined behaviour manager work.run state ∧
      manager.program (handling timer zone) = Result.attempted <$> work.run := by
    cases timer with
    | recovery => exact ⟨_, recover_determined inline, rfl⟩
    | sync => exact ⟨_, propagate_determined inline .update, rfl⟩
  obtain ⟨work, ⟨attempt, last, along⟩, same⟩ := worked
  refine ⟨attempt, last, ?_⟩
  rw [same]
  apply Conduct.Along.bind along
  rintro _ _ ⟨rfl, rfl⟩
  exact .pure fun _after unmoved => ⟨unmoved.symm, rfl⟩

theorem handling_of_unknown (unknown : manager.topology.get? zone.poolId = none) :
    manager.program (handling timer zone) =
      .done (.attempted (.error (.poolNotFound zone.poolId))) := by
  cases timer with
  | sync => exact propagate_of_unknown unknown
  | recovery =>
      have get : manager.topology.get zone.poolId = .error (.poolNotFound zone.poolId) := by
        unfold Topology.get
        rw [unknown]
      change Result.attempted <$> (manager.recover zone).run = _
      unfold Manager.recover Manager.pool
      rw [get]
      rfl

end Handling

end Propagation

namespace ReconciliationPolicy

open Propagation Interleaving

variable {policy : ReconciliationPolicy} {memory : Registry.Memory} {manager : Manager}
  {timing : Timing} {initial : Surroundings} {now : Situation} {timer : Timer}

theorem carryOut_eq (policy : ReconciliationPolicy) (timer : Timer) (zones : List Zone) :
    Result.ticked <$> (policy.carryOut timer zones : Fallible TickSummary).run =
      .perform (.fork batchWidth (zones.map (handling timer))) fun results =>
        (fun summary => Result.ticked (.ok summary)) <$> policy.closing timer results := by
  change Result.ticked <$> Except.ok <$> policy.carryOut timer zones = _
  rw [Functor.map_map]
  rfl

abbrev Finds {α : Type} (manager : Manager) (timing : Timing) (initial : Surroundings)
    (found : α → Prop) (program : Fallible α) : Prop :=
  ∀ now : Situation, now.surroundings = initial → (solo manager timing).Tries
    (fun later value => later.surroundings = initial ∧ found value) (fun _ _ => False) program now

namespace Finds

variable {α β : Type} {found : α → Prop} {last : β → Prop}

theorem pure {value : α} (met : found value) :
    Finds manager timing initial found (Pure.pure value) := by
  rintro now unmoved later rfl
  exact ⟨unmoved, met⟩

theorem bind {program : Fallible α} {follow : α → Fallible β}
    (first : Finds manager timing initial found program)
    (second : ∀ value, found value → Finds manager timing initial last (follow value)) :
    Finds manager timing initial last (program >>= follow) := by
  intro now unmoved
  apply Conduct.Tries.bind (first now unmoved)
  · rintro later value ⟨still, met⟩
    exact second value met later still
  · exact fun _ _ _ _ never => never

end Finds

theorem findZones_finds (kept : initial.registry = .memory memory) (criterion : ZoneCriterion) :
    Finds manager timing initial (fun found => found = memory.findZones criterion)
      (findZones criterion) := by
  rintro now rfl
  apply solo_performs_plain rfl
  intro reply left answer
  obtain ⟨rfl, rfl⟩ := answer.findZones
  rw [kept]
  exact ⟨rfl, rfl⟩

theorem now_finds :
    Finds manager timing initial (fun _ => True) (liftM (perform .now) : Fallible Timestamp) := by
  rintro now rfl
  apply Conduct.Tries.lift
  · apply solo_performs_plain rfl
    rintro reply left ⟨_, _, _, _, _, _, outcome⟩
    cases outcome
    exact ⟨rfl, trivial⟩
  · rintro before later _ rfl met
    exact met

theorem selection_finds (kept : initial.registry = .memory memory) :
    Finds manager timing initial (fun found => ∃ moment, found = policy.picked timer moment memory)
      (policy.selection timer) := by
  cases timer with
  | sync =>
      apply now_finds.bind
      intro moment _
      apply (findZones_finds kept _).bind
      rintro zones rfl
      exact .pure ⟨moment, rfl⟩
  | recovery =>
      apply (findZones_finds kept _).bind
      rintro failed rfl
      dsimp only
      split
      · next full => exact .pure ⟨.first, (recoverable_of_full full .first).symm⟩
      · apply now_finds.bind
        intro moment _
        apply (findZones_finds kept _).bind
        rintro stuck rfl
        exact .pure ⟨moment, rfl⟩

/-- The rows that sync has removed when it is done, and their number.  Recovery removes none, and the
registry stays as it is. -/
structure Reaps (policy : ReconciliationPolicy) (timer : Timer) (before after : Surroundings)
    (reaped : Nat) : Prop where
  registry : after.registry = before.registry
  recovery : timer = .recovery → after.status = before.status ∧ reaped = 0
  sync : timer = .sync → ∃ clock,
    after.status = (before.status.reapStale clock policy.statusTtl).2 ∧
      reaped = (before.status.reapStale clock policy.statusTtl).1.toOption.getD 0

theorem summarize_keeps (results : List Result) :
    (solo manager timing).Along (fun later summary =>
        later.surroundings.status = now.surroundings.status ∧
          later.surroundings.registry = now.surroundings.registry ∧
            summary = { processed := results.length
                        failed := results.countP fun result => !result.isSuccess })
      (summarize timer results) now := by
  let same (later : Situation) : Prop :=
    later.surroundings.status = now.surroundings.status ∧
      later.surroundings.registry = now.surroundings.registry
  have counted : (solo manager timing).Along (fun later _ => same later)
      (results.forM fun result => Propagation.measure (.reconciled timer result.isSuccess)) now := by
    apply Conduct.Along.forM
    · rintro before later rfl kept
      exact kept
    · rintro result _member before ⟨status, registry⟩
      apply solo_performs_plain rfl
      intro reply left answer
      exact ⟨(answer.unchanged.1 rfl).trans status, (answer.unchanged.2.1 rfl).trans registry⟩
    · exact ⟨rfl, rfl⟩
  apply Conduct.Along.bind counted
  rintro later _ ⟨status, registry⟩
  apply Conduct.Along.pure
  rintro last rfl
  exact ⟨status, registry, rfl⟩

theorem closing_reaps (results : List Result) :
    (solo manager timing).Along (fun later summary => summary.processed = results.length ∧
        summary.failed = results.countP (fun result => !result.isSuccess) ∧
          policy.Reaps timer now.surroundings later.surroundings summary.reaped)
      (policy.closing timer results) now := by
  cases timer with
  | recovery =>
      apply (summarize_keeps results).weaken
      rintro later summary ⟨status, registry, rfl⟩
      exact ⟨rfl, rfl, registry, fun _ => ⟨status, rfl⟩, nofun⟩
  | sync =>
      apply Conduct.Along.bind (summarize_keeps results)
      rintro counted summary ⟨status, registry, rfl⟩
      have reaps : (solo manager timing).Along (fun later reaped =>
          policy.Reaps .sync now.surroundings later.surroundings reaped)
          (reapRows policy.statusTtl) counted := by
        have asked : (solo manager timing).Along (fun later reply =>
            policy.Reaps .sync now.surroundings later.surroundings (reply.toOption.getD 0))
            (perform (.reapRows policy.statusTtl)) counted := by
          apply solo_performs_plain rfl
          intro reply left answer
          obtain ⟨clock, rfl, rfl⟩ := answer.reapRows
          refine ⟨registry, nofun, fun _ => ⟨clock, ?_⟩⟩
          rw [← status]
          exact ⟨rfl, rfl⟩
        apply Conduct.Along.bind asked
        intro later reply met
        apply Conduct.Along.pure
        rintro last rfl
        exact met
      apply Conduct.Along.bind reaps
      intro later reaped met
      apply Conduct.Along.pure
      rintro last rfl
      exact ⟨rfl, rfl, met⟩

theorem closing_bounded (results : List Result) :
    Strand.Bounded manager (.running
      ((fun summary => Result.ticked (.ok summary)) <$> policy.closing timer results)) := by
  have closes := (policy.closing_yields timer results).plain
  exact .of_plain (closes.bind fun _ _ _ => trivial)

/-! ### Zones of one batch -/

/-- The attempt on the zone had this result and left what is now kept of the zone, and an attempt
that handles the zone alone from the beginning comes to the same. -/
def HandledAsAlone (behaviour : Behaviour) (manager : Manager) (timer : Timer)
    (initial left : Surroundings) (zone : Zone) (attempt : Except Fault Progress) : Prop :=
  ∃ state : ZoneState, state.Holds zone.id left ∧
    Strand.Settles manager behaviour.timely (fun alone own =>
        (∀ event ∈ alone.past, behaviour.Fits event) →
          own = .attempted attempt ∧ state.Holds zone.id alone.surroundings)
      ⟨initial, []⟩ (.start manager (handling timer zone))

def BatchLeaves (timing : Timing) (initial : Surroundings) (work : List Operation)
    (results : List Result) (past : List Event) (left : Surroundings) : Prop :=
  ∃ events, ⟨.fork batchWidth work, results⟩ :: events <:+ past ∧ Leads timing initial events left

/-- Each zone was handled as if alone, which left what sync then removed stale rows from.  The
summary counts the zones and the attempts that failed. -/
def HandledEach (policy : ReconciliationPolicy) (behaviour : Behaviour) (manager : Manager)
    (timer : Timer) (initial : Surroundings) (zones : List Zone) (final : Situation)
    (result : Result) : Prop :=
  ∃ attempts summary left,
    BatchLeaves behaviour.timely initial (zones.map (handling timer)) (attempts.map .attempted)
      final.past left ∧
    List.Forall₂ (HandledAsAlone behaviour manager timer initial left) zones attempts ∧
    policy.Reaps timer left final.surroundings summary.reaped ∧
    result = .ticked (.ok summary) ∧ summary.processed = zones.length ∧
    summary.failed = attempts.countP hasFailed

/-- From what is kept of the zone at first, an attempt on it comes to the result and leaves this. -/
def ComesTo (behaviour : Behaviour) (manager : Manager) (timer : Timer) (initial : Surroundings)
    (zone : Zone) (attempt : Except Fault Progress) (last : ZoneState) : Prop :=
  ∃ state : ZoneState, state.Holds zone.id initial ∧ (secluded behaviour manager).Along
    (fun after result => after = last ∧ result = .attempted attempt)
    (manager.program (handling timer zone)) state

section Zones

variable {behaviour : Behaviour} {zone : Zone} {attempt : Except Fault Progress} {last : ZoneState}
  {left : Surroundings}

theorem exists_comesTo {rows : Status.Memory} (inline : manager.policy.detached = false)
    (status : initial.status = .memory rows) (registry : initial.registry = .memory memory)
    (accepting : memory.refusals = 0) (zone : Zone) :
    ∃ attempt last, ComesTo behaviour manager timer initial zone attempt last := by
  obtain ⟨state, holds⟩ := ZoneState.exists_holds zone.id status registry accepting
  obtain ⟨attempt, last, along⟩ := handling_determined inline state
  exact ⟨attempt, last, state, holds, along⟩

theorem ComesTo.alone (comes : ComesTo behaviour manager timer initial zone attempt last)
    (inline : manager.policy.detached = false) (idle : initial.locks.Idle)
    (holdsLeft : last.Holds zone.id left) :
    HandledAsAlone behaviour manager timer initial left zone attempt := by
  obtain ⟨state, holds, along⟩ := comes
  refine ⟨last, holdsLeft, ?_⟩
  apply (settles_alone (handling_confined inline) idle holds along).weaken
  intro final own met fits
  obtain ⟨_, holdsFinal, rfl, rfl⟩ := met fits
  exact ⟨rfl, holdsFinal⟩

theorem ComesTo.handles (comes : ComesTo behaviour manager timer now.surroundings zone attempt last)
    (inline : manager.policy.detached = false) :
    Handles behaviour manager (fun after result => after = last ∧ result = .attempted attempt)
      zone.id now (.start manager (handling timer zone)) := by
  obtain ⟨state, holds, along⟩ := comes
  exact .start (handling_confined inline) holds along

theorem HandledAsAlone.of_unknown (unknown : manager.topology.get? zone.poolId = none)
    (handled : HandledAsAlone behaviour manager timer initial left zone attempt) :
    attempt = .error (.poolNotFound zone.poolId) := by
  obtain ⟨state, -, settles⟩ := handled
  unfold Strand.start at settles
  rw [handling_of_unknown unknown] at settles
  obtain ⟨same, -⟩ := settles.of_done (List.forall_mem_nil _)
  cases same
  rfl

theorem carryOut_settles {zones : List Zone} {attempt : Zone → Except Fault Progress}
    {last : Zone → ZoneState} (inline : manager.policy.detached = false)
    (idle : now.surroundings.locks.Idle) (distinct : (zones.map Zone.id).Nodup)
    (leads : Leads behaviour.timely now.surroundings now.past now.surroundings)
    (comes : ∀ zone, ComesTo behaviour manager timer now.surroundings zone (attempt zone)
      (last zone)) :
    Strand.Settles manager behaviour.timely (fun final result =>
        (∀ event ∈ final.past, behaviour.Fits event) →
          policy.HandledEach behaviour manager timer now.surroundings zones final result)
      now (.running (Result.ticked <$> (policy.carryOut timer zones : Fallible TickSummary).run)) := by
  rw [carryOut_eq]
  apply Strand.Settles.fork
  apply settles_together distinct idle leads (fun zone _ => (comes zone).handles inline)
    closing_bounded
  intro joined results led paired
  apply Strand.Settles.of_along
  apply Conduct.Along.bind (solo_grows (closing_reaps results))
  rintro final summary ⟨⟨processed, failed, reaps⟩, longer⟩
  apply Conduct.Along.pure
  rintro _ rfl fits
  have each := paired fun event member =>
    fits event (longer.mem (List.mem_cons_of_mem _ member))
  obtain ⟨rfl, left⟩ := attempted_of_each each
  rw [List.length_map, List.length_map] at processed
  rw [countP_attempted] at failed
  refine ⟨_, summary, joined.surroundings, ⟨_, longer, led⟩, ?_, reaps, rfl, processed, failed⟩
  rw [List.forall₂_map_right_iff, List.forall₂_same]
  exact fun zone member => (comes zone).alone inline idle (left zone member)

end Zones

/-- One zone does not disturb the others of its batch.  Whatever their attempts come to, and in
whatever order they go on, each has the result that it has alone, and leaves what it leaves alone of
the zone's rows, its entry in the registry and the reports on it.  The tick counts the zones of the
batch and those whose attempt has failed. -/
theorem tick_handles_each_alone (policy : ReconciliationPolicy) (timer : Timer)
    (behaviour : Behaviour) {rows : Status.Memory}
    (inline : manager.policy.detached = false) (status : initial.status = .memory rows)
    (registry : initial.registry = .memory memory) (accepting : memory.refusals = 0)
    (distinct : (memory.zones.map Zone.id).Nodup) (idle : initial.locks.Idle) :
    Strand.Settles manager behaviour.timely (fun final result =>
        (∀ event ∈ final.past, behaviour.Fits event) → ∃ moment,
          policy.HandledEach behaviour manager timer initial (policy.picked timer moment memory)
            final result)
      ⟨initial, []⟩ (.running (Result.ticked <$> (policy.tick timer).run)) := by
  have comes : ∀ zone, ∃ attempt last, ComesTo behaviour manager timer initial zone attempt last :=
    exists_comesTo inline status registry accepting
  choose attempt last comes using comes
  rw [tick_eq, ExceptT.run_bind, map_bind]
  apply Strand.Settles.bind
  apply Conduct.Along.weaken (solo_leads (policy.selection_finds registry ⟨initial, []⟩ rfl))
  rintro chosen (fault | zones) ⟨met, events, past, leads, -⟩
  · cases met
  obtain ⟨rfl, moment, rfl⟩ := met
  rw [List.append_nil] at past
  rw [← past] at leads
  have picks := policy.picked_distinct distinct timer moment
  exact (carryOut_settles inline idle picks leads comes).weaken fun _ _ handled fits =>
    ⟨moment, handled fits⟩

theorem tick_handles_each_alone_unknown :
    let zone (id poolId : String) : Zone :=
      { id, name := id ++ ".", serial := 10, action := .update, status := .error, poolId,
        updatedAt := ⟨0, 0⟩ }
    let pool : Pool := { id := "p", name := "p", nameservers := [⟨"a", 53⟩, ⟨"b", 53⟩] }
    let manager : Manager := ⟨{ pools := [pool] }, { probe := ⟨1000, 100, 3⟩ }⟩
    let memory : Registry.Memory := { zones := [zone "bad" "q", zone "good" "p"] }
    let initial : Surroundings := { status := .memory { ttl := 3600000 }, registry := .memory memory }
    let behaviour : Behaviour :=
      { found := fun _ _ _ _ => { outcome := .ok, serial := some 10, attempts := 1 }
        accepts := fun _ _ => true }
    let policy : ReconciliationPolicy := { maxZones := 2 }
    Strand.Settles manager behaviour.timely (fun final result =>
        (∀ event ∈ final.past, behaviour.Fits event) → ∃ attempt summary left,
          HandledAsAlone behaviour manager .recovery initial left (zone "good" "p") attempt ∧
          result = .ticked (.ok summary) ∧ summary.processed = 2 ∧
          summary.failed = [.error (.poolNotFound "q"), attempt].countP hasFailed)
      ⟨initial, []⟩ (.running (Result.ticked <$> (policy.tick .recovery).run)) := by
  intro zone pool manager memory initial behaviour policy
  have inline : manager.policy.detached = false := rfl
  have registry : initial.registry = .memory memory := rfl
  have status : initial.status = .memory { ttl := 3600000 } := rfl
  have idle : initial.locks.Idle := ⟨⟨by decide, by decide, by decide⟩, rfl, rfl⟩
  apply (tick_handles_each_alone policy .recovery behaviour inline status registry rfl (by decide)
    idle).weaken
  intro final result met fits
  obtain ⟨moment, attempts, summary, left, -, each, -, ticked, processed, failed⟩ := met fits
  have both : memory.findZones policy.failed = [zone "bad" "q", zone "good" "p"] := by cbv
  have full : policy.maxZones - (memory.findZones policy.failed).length = 0 := by
    rw [both]
    rfl
  change List.Forall₂ _ (policy.recoverable moment memory) _ at each
  change _ = (policy.recoverable moment memory).length at processed
  rw [recoverable_of_full full, both] at each processed
  cases each with
  | cons bad each =>
  cases each with
  | cons good none =>
  cases none
  obtain rfl := bad.of_unknown rfl
  exact ⟨_, summary, left, good, ticked, processed, failed⟩

end ReconciliationPolicy

end ZonePropagation
