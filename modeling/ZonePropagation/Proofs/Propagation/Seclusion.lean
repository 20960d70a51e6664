import ZonePropagation.Proofs.Interleaving.Settling
import ZonePropagation.Proofs.Propagation.Determined
/-!
Attempts that go on next to each other.

An attempt reads and changes nothing that is kept but of its own zone.  So among attempts on other
zones, in whatever order they take their steps, it comes to what it comes to when it works alone.
-/

namespace ZonePropagation.Propagation

open Interleaving Status.Memory

variable {behaviour : Behaviour} {manager : Manager}

/-! ### What an attempt is about -/

abbrev Minor {α : Type} (id : String) (program : Program α) : Prop :=
  Only (fun effect => isPlain effect = true ∧ Concerns id effect) program

/-- The program and all work that it hands out concern the zone alone. -/
abbrev Confined {α : Type} (manager : Manager) (id : String) (program : Program α) : Prop :=
  Only (Shallow manager (Concerns id)) program

section Programs

variable {α : Type} {policy : VerificationPolicy} {pool : Pool} {zone : Zone}

theorem Asks.minor {id : String} {program : Program α} (asks : Asks program) : Minor id program := by
  apply Only.weaken asks
  intro effect asking
  cases effect with
  | probe _ _ _ _ | measure _ | pause _ => exact ⟨rfl, trivial⟩
  | _ => cases asking

theorem Concludes.confined {program : Program α} (concludes : Concludes zone program) :
    Confined manager zone.id program := by
  apply Only.weaken concludes
  intro effect concluding
  cases effect with
  | readRows _ | clearRows _ =>
      cases concluding
      rfl
  | deliver _ | measure _ | pauseUpTo _ => exact concluding
  | _ => cases concluding

theorem change_minor (target : String) (zone : Zone) :
    Minor zone.id (manager.program (.change target zone)) := by
  have called : Minor zone.id (perform (.callBackend target zone.action.change zone)) :=
    .perform ⟨rfl, trivial⟩
  have changed : Minor zone.id (change target zone) := by
    apply called.bind
    intro reply
    split
    · exact .pure _
    · exact (measure_asks _).minor.bind fun _ => .pure _
  exact changed.bind fun _ => .pure _

theorem announce_minor (zone : Zone) (server : Nameserver) :
    Minor zone.id (manager.program (.announce zone server)) := by
  have told : Asks (discard (probe .announcement zone server
      { manager.policy.probe with maxRetries := 1 })) :=
    (probe_asks _ _ _ _).bind fun _ => .pure _
  exact told.minor.bind fun _ => .pure _

theorem verify_minor (zone : Zone) (server : Nameserver) :
    Minor zone.id (manager.program (.verify zone server)) := by
  apply (verifyServer_asks _ _ _).minor.bind
  rintro ⟨status, serial⟩
  have stored : Minor zone.id (storeRow zone.key server status serial).run := .perform ⟨rfl, rfl⟩
  exact stored.bind fun _ => .pure _

theorem sideBySide_confined {Item : Type} {items : List Item} {operation : Item → Operation}
    {id : String} (minor : ∀ item, Minor id (manager.program (operation item))) :
    Confined manager id (sideBySide (items.map operation)) := by
  apply Only.perform
  intro handed member
  obtain ⟨item, -, rfl⟩ := List.mem_map.mp member
  exact minor item

theorem storeRows_confined (servers : List Nameserver) (status : Status) :
    Confined manager zone.id
      (servers.forM fun server => storeRow zone.key server status none).run :=
  .triesForM fun _ _ => .perform rfl

theorem locked_confined {work : Program α} (within : Confined manager zone.id work) :
    Confined manager zone.id (locked zone.key work) := by
  have turns : ∀ {effect : Effect}, turnsLocks effect = true →
      Confined manager zone.id (perform effect) := by
    intro effect turning
    cases effect with
    | enter _ | acquire _ | release _ | retire _ _ | leave _ => exact .perform trivial
    | _ => cases turning
  unfold locked
  refine (turns rfl).bind fun lock => (turns rfl).bind fun _ => within.bind fun _ => ?_
  exact (turns rfl).bind fun _ => (turns rfl).bind fun _ => (turns rfl).bind fun _ => .pure _

theorem verify_confined (inline : policy.detached = false) :
    Confined manager zone.id (verify policy pool zone).run := by
  unfold verify
  apply (storeRows_confined pool.nameservers .pending).tries
  intro _stored
  rw [inline, Bool.false_and, if_neg Bool.false_ne_true]
  apply (sideBySide_confined (verify_minor zone)).lift.tries
  intro results
  refine Only.tries (Only.triesForIn fun result _member => ?_) ?_
  · split
    · exact .pure _
    · exact .pure _
  intro _checked
  have decided : Confined manager zone.id (locked zone.key (decide policy pool zone).run) :=
    locked_confined decide_concludes.confined
  apply decided.tries
  intro verdict
  split
  · exact .pure _
  · exact .pure _

theorem propagate_confined (inline : manager.policy.detached = false) (action : ZoneAction) :
    Confined manager zone.id (manager.program (.propagate zone action)) := by
  have attempted : Confined manager zone.id (manager.propagate zone action).run := by
    unfold Manager.propagate
    have found : Confined manager zone.id (manager.pool zone).run := .pure _
    apply found.tries
    intro pool
    have cleared : Confined manager zone.id (clearRows { zone with action }.key).run := .perform rfl
    apply cleared.tries
    intro _cleared
    have asked : Confined manager zone.id
        (sideBySide (pool.targets.map fun target => .change target.id { zone with action })) :=
      sideBySide_confined fun target => change_minor target.id { zone with action }
    have dispatched : Confined manager zone.id (dispatch pool { zone with action }) :=
      asked.bind fun _ => .pure _
    apply dispatched.lift.tries
    intro accepted
    split
    · have gaveUp : Confined manager { zone with action }.id
          (giveUp manager.policy pool { zone with action }).run := by
        unfold giveUp
        apply (storeRows_confined pool.nameservers .error).tries
        exact fun _ => conclude_concludes.confined.tries fun _ => .pure _
      exact gaveUp
    · have announced : Confined manager zone.id (announceToOthers pool { zone with action }) := by
        unfold announceToOthers
        split
        · exact .pure _
        · exact (sideBySide_confined (announce_minor { zone with action })).bind fun _ => .pure _
      apply announced.lift.tries
      have verified : Confined manager { zone with action }.id
        (verify manager.policy pool { zone with action }).run := verify_confined inline
      exact fun _ => verified
  exact attempted.bind fun _ => .pure _

theorem recover_confined (inline : manager.policy.detached = false) :
    Confined manager zone.id (manager.program (.recover zone)) := by
  have attempted : Confined manager zone.id (manager.recover zone).run := by
    unfold Manager.recover
    have found : Confined manager zone.id (manager.pool zone).run := .pure _
    apply found.tries
    intro pool
    have cleared : Confined manager zone.id
      (clearRows { zone with action := zone.action.effective }.key).run := .perform rfl
    have verified : Confined manager { zone with action := zone.action.effective }.id
      (verify manager.policy pool { zone with action := zone.action.effective }).run :=
        verify_confined inline
    exact cleared.tries fun _ => verified
  exact attempted.bind fun _ => .pure _

end Programs

/-! ### Steps among others -/

/-- From the state of its zone on, the strand comes to the goal whatever order its work is done in. -/
inductive Comes (behaviour : Behaviour) (manager : Manager) (goal : ZoneState → Result → Prop)
    (state : ZoneState) : Strand → Prop
  | running {task : Program Result}
      (along : (secluded behaviour manager).Along goal task state) :
      Comes behaviour manager goal state (.running task)
  | waiting {width : Nat} {work : List Operation} {tasks : List (Program Result)}
      {next : List Result → Program Result}
      (joins : ∀ results after, Finishes behaviour tasks state results after →
        (secluded behaviour manager).Along goal (next results) after) :
      Comes behaviour manager goal state (.waiting width work (tasks.map .running) next)

section Steps

variable {id : String} {goal : ZoneState → Result → Prop} {state : ZoneState}
  {now later : Situation} {strand moved : Strand} {operations : List Operation}

theorem running_injective : Function.Injective Strand.running := by
  intro left right equal
  cases equal
  rfl

theorem Comes.joins {width : Nat} {work : List Operation} {tasks : List (Program Result)}
    {next : List Result → Program Result}
    (comes : Comes behaviour manager goal state (.waiting width work (tasks.map .running) next)) :
    ∀ results after, Finishes behaviour tasks state results after →
      (secluded behaviour manager).Along goal (next results) after := by
  generalize same : tasks.map Strand.running = strands at comes
  cases comes with
  | waiting joins =>
      obtain rfl := List.map_injective_iff.mpr running_injective same
      exact joins

theorem Comes.step (comes : Comes behaviour manager goal state strand)
    (tidy : strand.Tidy manager (Concerns id)) (holds : state.Holds id now.surroundings)
    (step : Strand.Step manager behaviour.timely now strand later moved operations)
    (fits : ∀ event ∈ later.past, behaviour.Fits event) :
    ∃ after : ZoneState, after.Holds id later.surroundings ∧
      Comes behaviour manager goal after moved := by
  cases tidy with
  | running only =>
      cases comes with
      | running along =>
          cases step with
          | perform single answer =>
              obtain ⟨-, goesOn⟩ := along _ rfl
              have fit := fits _ List.mem_cons_self
              obtain ⟨after, meets, holdsAfter⟩ :=
                holds.following (only.1.kind single).1 fit answer
              exact ⟨after, holdsAfter, .running (goesOn _ after (.inl ⟨single, meets⟩))⟩
          | @fork width work next =>
              obtain ⟨-, goesOn⟩ := along _ rfl
              refine ⟨state, holds, ?_⟩
              rw [map_start]
              exact .waiting fun results after finishes =>
                goesOn results after (.inr ⟨width, work, results, rfl, finishes⟩)
  | @waiting width work tasks next inner goesOn =>
      have joins := comes.joins
      generalize same : tasks.map Strand.running = strands at step
      cases step with
      | @inner _ _ _ before behind strand moved _ _ step =>
          obtain ⟨first, others, rfl, rfl, rest⟩ := List.map_eq_append_iff.mp same
          obtain ⟨task, last, rfl, rfl, rfl⟩ := List.map_eq_cons_iff.mp rest
          have here := inner task (by simp)
          cases step with
          | @perform effect follow reply left single answer =>
              have fit := fits _ List.mem_cons_self
              obtain ⟨after, meets, holdsAfter⟩ := holds.following here.1.2 fit answer
              refine ⟨after, holdsAfter, ?_⟩
              have moved : first.map Strand.running ++ .running (follow reply) ::
                  last.map Strand.running = (first ++ follow reply :: last).map .running := by simp
              rw [moved]
              exact .waiting fun results final finishes =>
                joins results final (.step meets finishes)
          | fork => cases here.1.1
      | @join _ _ results _ =>
          have done : (results.map Task.done).map Strand.running = tasks.map .running := by
            rw [same, List.map_map]
            rfl
          obtain rfl := List.map_injective_iff.mpr running_injective done
          exact ⟨state, holds, .running (joins results state .done)⟩

/-- A step of a strand on another zone changes nothing of what is kept of this one. -/
theorem ZoneState.Holds.aside {other : String} (holds : state.Holds id now.surroundings)
    (different : other ≠ id) (tidy : strand.Tidy manager (Concerns other))
    (step : Strand.Step manager behaviour.timely now strand later moved operations) :
    state.Holds id later.surroundings := by
  obtain ⟨-, -, same | ⟨effect, reply, after, concerns, answer, rfl⟩⟩ := tidy.step step
  · rw [same]
    exact holds
  · exact holds.frame different concerns answer

/-- The strand works on the zone, and comes to the goal when nameservers and targets answer the same
each time. -/
structure Handles (behaviour : Behaviour) (manager : Manager) (goal : ZoneState → Result → Prop)
    (id : String) (now : Situation) (strand : Strand) : Prop where
  tidy : strand.Tidy manager (Concerns id)
  comes : (∀ event ∈ now.past, behaviour.Fits event) →
    ∃ state : ZoneState, state.Holds id now.surroundings ∧ Comes behaviour manager goal state strand

namespace Handles

theorem start {operation : Operation} (confined : Confined manager id (manager.program operation))
    (holds : state.Holds id now.surroundings)
    (along : (secluded behaviour manager).Along goal (manager.program operation) state) :
    Handles behaviour manager goal id now (.start manager operation) :=
  ⟨.running confined, fun _fits => ⟨state, holds, .running along⟩⟩

theorem step (handles : Handles behaviour manager goal id now strand)
    (step : Strand.Step manager behaviour.timely now strand later moved operations) :
    Handles behaviour manager goal id later moved := by
  refine ⟨(handles.tidy.step step).2.1, ?_⟩
  intro fits
  obtain ⟨state, holds, comes⟩ :=
    handles.comes fun event member => fits event (step.past_suffix.mem member)
  exact comes.step handles.tidy holds step fits

theorem aside {other : String} {another : Strand}
    (handles : Handles behaviour manager goal id now another) (different : other ≠ id)
    (tidy : strand.Tidy manager (Concerns other))
    (step : Strand.Step manager behaviour.timely now strand later moved operations) :
    Handles behaviour manager goal id later another := by
  refine ⟨handles.tidy, ?_⟩
  intro fits
  obtain ⟨state, holds, comes⟩ :=
    handles.comes fun event member => fits event (step.past_suffix.mem member)
  exact ⟨state, holds.aside different tidy step, comes⟩

theorem ends {result : Result}
    (handles : Handles behaviour manager goal id now (.running (.done result)))
    (fits : ∀ event ∈ now.past, behaviour.Fits event) :
    ∃ last : ZoneState, last.Holds id now.surroundings ∧ goal last result := by
  obtain ⟨state, holds, comes⟩ := handles.comes fits
  cases comes with
  | running along => exact ⟨state, holds, along state rfl⟩

end Handles

theorem settles_alone {operation : Operation} {initial : Surroundings}
    (confined : Confined manager id (manager.program operation)) (idle : initial.locks.Idle)
    (holds : state.Holds id initial)
    (along : (secluded behaviour manager).Along goal (manager.program operation) state) :
    Strand.Settles manager behaviour.timely (fun final result =>
        (∀ event ∈ final.past, behaviour.Fits event) →
          ∃ last : ZoneState, last.Holds id final.surroundings ∧ goal last result)
      ⟨initial, []⟩ (.start manager operation) := by
  have sharing : Sharing ⟨initial, []⟩ ([operation].map (Strand.start manager)) :=
    .begin (locking_kept manager) idle
  apply Strand.Settles.of_tidy (locking_kept manager) (.running confined) sharing ?_ ?_
    (Handles.start confined holds along)
  · exact fun now later strand moved _tidy handles step => handles.step step
  · exact fun now result handles fits => handles.ends fits

/-! ### Batches -/

/-- The strands are at work on the zones, each on one of its own. -/
structure Together (behaviour : Behaviour) (manager : Manager)
    (goal : Zone → ZoneState → Result → Prop) (zones : List Zone) (initial : Surroundings)
    (now : Situation) (strands : List Strand) : Prop where
  leads : Leads behaviour.timely initial now.past now.surroundings
  each : ∃ members : List (Zone × Strand), members.map Prod.fst = zones ∧
    members.map Prod.snd = strands ∧
      ∀ member ∈ members, Handles behaviour manager (goal member.1) member.1.id now member.2

namespace Together

variable {zones : List Zone} {goal : Zone → ZoneState → Result → Prop} {initial : Surroundings}
  {strands before behind : List Strand}

theorem start {handle : Zone → Operation}
    (leads : Leads behaviour.timely initial now.past now.surroundings)
    (handles : ∀ zone ∈ zones,
      Handles behaviour manager (goal zone) zone.id now (.start manager (handle zone))) :
    Together behaviour manager goal zones initial now
      ((zones.map handle).map (Strand.start manager)) := by
  refine ⟨leads, zones.map fun zone => (zone, .start manager (handle zone)), ?_, ?_, ?_⟩
  · simp [Function.comp_def]
  · simp
  · exact List.forall_mem_map.mpr handles

theorem tidy (together : Together behaviour manager goal zones initial now strands) :
    ∀ strand ∈ strands, ∃ kind, strand.Tidy manager kind := by
  obtain ⟨-, members, -, rfl, each⟩ := together
  intro strand member
  obtain ⟨one, inside, rfl⟩ := List.mem_map.mp member
  exact ⟨_, (each one inside).tidy⟩

theorem step (distinct : (zones.map Zone.id).Nodup)
    (together : Together behaviour manager goal zones initial now (before ++ strand :: behind))
    (step : Strand.Step manager behaviour.timely now strand later moved operations) :
    Together behaviour manager goal zones initial later (before ++ moved :: behind) := by
  obtain ⟨leads, members, rfl, sameStrands, each⟩ := together
  obtain ⟨near, rest, rfl, rfl, sameRest⟩ := List.map_eq_append_iff.mp sameStrands
  obtain ⟨⟨zone, task⟩, far, rfl, sameStrand, rfl⟩ := List.map_eq_cons_iff.mp sameRest
  obtain rfl : task = strand := sameStrand
  rw [List.map_map, List.map_append, List.map_cons, List.nodup_middle, List.nodup_cons,
    ← List.map_append] at distinct
  have elsewhere : ∀ other ∈ near ++ far, zone.id ≠ other.1.id :=
    fun other member same => distinct.1 (List.mem_map.mpr ⟨other, member, same.symm⟩)
  refine ⟨step.leads leads, near ++ (zone, moved) :: far, by simp, by simp, ?_⟩
  rw [List.forall_mem_append] at elsewhere
  rw [List.forall_mem_append, List.forall_mem_cons] at each ⊢
  obtain ⟨nearby, here, beyond⟩ := each
  refine ⟨fun other member => ?_, here.step step, fun other member => ?_⟩
  · exact (nearby other member).aside (elsewhere.1 other member) here.tidy step
  · exact (beyond other member).aside (elsewhere.2 other member) here.tidy step

theorem ends {results : List Result}
    (together : Together behaviour manager goal zones initial now
      (results.map fun result => .running (.done result)))
    (fits : ∀ event ∈ now.past, behaviour.Fits event) :
    List.Forall₂ (fun zone result => ∃ last : ZoneState,
      last.Holds zone.id now.surroundings ∧ goal zone last result) zones results := by
  obtain ⟨-, members, rfl, same, each⟩ := together
  have paired : List.Forall₂ (fun zone strand =>
      Handles behaviour manager (goal zone) zone.id now strand)
      (members.map Prod.fst) (members.map Prod.snd) := by
    rw [List.forall₂_map_left_iff, List.forall₂_map_right_iff, List.forall₂_same]
    exact each
  rw [same, List.forall₂_map_right_iff] at paired
  exact paired.imp fun _zone _result handles => handles.ends fits

end Together

theorem settles_together {zones : List Zone} {handle : Zone → Operation}
    {goal : Zone → ZoneState → Result → Prop} {final : Situation → Result → Prop} {width : Nat}
    {work : List Operation} {next : List Result → Program Result} {initial : Surroundings}
    (distinct : (zones.map Zone.id).Nodup) (idle : now.surroundings.locks.Idle)
    (leads : Leads behaviour.timely initial now.past now.surroundings)
    (handles : ∀ zone ∈ zones,
      Handles behaviour manager (goal zone) zone.id now (.start manager (handle zone)))
    (bounded : ∀ results, Strand.Bounded manager (.running (next results)))
    (joins : ∀ (later : Situation) results,
      Leads behaviour.timely initial later.past later.surroundings →
      ((∀ event ∈ later.past, behaviour.Fits event) →
        List.Forall₂ (fun zone result => ∃ last : ZoneState,
          last.Holds zone.id later.surroundings ∧ goal zone last result) zones results) →
      Strand.Settles manager behaviour.timely final
        (later.following (.fork width work) results later.surroundings) (.running (next results))) :
    Strand.Settles manager behaviour.timely final now
      (.waiting width work ((zones.map handle).map (Strand.start manager)) next) := by
  apply Strand.Settles.of_work (locking_kept manager) ?_ (.begin (locking_kept manager) idle)
    bounded ?_ ?_ (Together.start leads handles)
  · exact fun now strands together => together.tidy
  · exact fun now later before behind strand moved together step => together.step distinct step
  · exact fun later results together => joins later results together.leads together.ends

end Steps

end ZonePropagation.Propagation
