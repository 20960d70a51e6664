import ZonePropagation.Proofs.Interleaving.Conduct
import ZonePropagation.Proofs.Interleaving.World
/-!
Laws on what is performed.

A law says which effects may follow which past.  When every program that may begin keeps to it,
whatever others perform in between, then everything that a manager in use ever performs was
allowed when it came.
-/

namespace ZonePropagation.Interleaving

open Propagation

def handedOut : Effect → List Operation
  | .fork _ work => work
  | .detach work => work
  | _ => []

/-- The effects that may follow a past, and the operations that may begin. -/
structure Law where
  allows : List Event → Effect → Prop
  permits : Operation → Prop

namespace Law

variable (law : Law)

def conduct : Conduct (List Event) where
  answers := fun past effect reply after => after = ⟨effect, reply⟩ :: past
  rely := fun past later => past <:+ later
  rule := fun past effect =>
    law.allows past effect ∧ ∀ operation ∈ handedOut effect, law.permits operation
  rely_refl := fun past => List.suffix_refl past
  rely_trans := fun first second => first.trans second

/-- The program keeps to the law from a past on, and its value shows something of the past that it
leaves. -/
abbrev Shows {α : Type} (shows : List Event → α → Prop) (program : Program α)
    (past : List Event) : Prop :=
  law.conduct.Along shows program past

abbrev Tries {α : Type} (shows : List Event → α → Prop) (program : Fallible α)
    (past : List Event) : Prop :=
  law.conduct.Tries shows (fun _ _ => True) program past

abbrev Binds {α : Type} (past : List Event) (program : Program α) : Prop :=
  law.Shows (fun _ _ => True) program past

def Kept (manager : Manager) : Prop :=
  ∀ operation, law.permits operation → ∀ past, law.Binds past (manager.program operation)

def Obeyed (past : List Event) : Prop :=
  ∀ event earlier, event :: earlier <:+ past → law.allows earlier event.effect

inductive Governs (past : List Event) : Strand → Prop
  | running {task : Program Result} (bound : law.Binds past task) : Governs past (.running task)
  | waiting {width : Nat} {work : List Operation} {strands : List Strand}
      {next : List Result → Program Result}
      (inner : ∀ strand ∈ strands, Governs past strand)
      (goesOn : ∀ later results, past <:+ later → law.allows later (.fork width work) ∧
        law.Binds (⟨.fork width work, results⟩ :: later) (next results)) :
      Governs past (.waiting width work strands next)

variable {law} {manager : Manager} {timing : Timing}

section Programs

variable {α β : Type} {shows : List Event → α → Prop} {final : List Event → β → Prop}
  {past : List Event}

/-- An effect that is allowed whatever others performed before it.  Its reply is in the past from
then on. -/
theorem performs {effect : Effect} (allowed : ∀ later, past <:+ later → law.allows later effect)
    (permitted : ∀ operation ∈ handedOut effect, law.permits operation) :
    law.Shows (fun later reply => ⟨effect, reply⟩ ∈ later) (perform effect) past := by
  refine Conduct.Along.perform (fun later more => ⟨allowed later more, permitted⟩) ?_
  intro now reply after _more answer last further
  cases answer
  exact further.mem (by simp)

theorem Shows.grown {program : Program α} (bound : law.Shows shows program past) :
    law.Shows (fun later value => past <:+ later ∧ shows later value) program past := by
  suffices from_start : ∀ start, start <:+ past →
      law.Shows (fun later value => start <:+ later ∧ shows later value) program past from
    from_start past (List.suffix_refl past)
  intro start earlier
  induction program generalizing past with
  | done value =>
      intro later more
      exact ⟨earlier.trans more, bound later more⟩
  | perform effect next ih =>
      intro later more
      obtain ⟨allowed, goesOn⟩ := bound later more
      refine ⟨allowed, ?_⟩
      intro reply after answer
      apply ih reply (goesOn reply after answer)
      cases answer
      exact (earlier.trans more).trans (List.suffix_cons _ _)

theorem Shows.pure {value : α} (met : ∀ later, past <:+ later → shows later value) :
    law.Shows shows (Pure.pure value : Program α) past := met

theorem Shows.bind {program : Program α} {follow : α → Program β}
    (first : law.Shows shows program past)
    (second : ∀ later value, past <:+ later → shows later value →
      law.Shows final (follow value) later) :
    law.Shows final (program >>= follow) past :=
  Conduct.Along.bind first.grown fun later value met => second later value met.1 met.2

theorem Shows.binds {program : Program α} (bound : law.Shows shows program past) :
    law.Binds past program :=
  bound.weaken fun _ _ _ => trivial

theorem Tries.pure {value : α} (met : ∀ later, past <:+ later → shows later value) :
    law.Tries shows (Pure.pure value : Fallible α) past := met

theorem Tries.throw (fault : Fault) :
    law.Tries (fun _ _ => False) (MonadExcept.throw fault : Fallible α) past :=
  Conduct.Tries.throw fun _ _ => trivial

theorem Tries.bind {program : Fallible α} {follow : α → Fallible β}
    (first : law.Tries shows program past)
    (second : ∀ later value, past <:+ later → shows later value →
      law.Tries final (follow value) later) :
    law.Tries final (program >>= follow) past := by
  apply Shows.bind first
  intro later result more met
  cases result with
  | ok value => exact second later value more met
  | error fault => exact Shows.pure fun _ _ => trivial

theorem Tries.lift {program : Program α} (bound : law.Shows shows program past)
    (stable : ∀ now later value, now <:+ later → shows now value → shows later value) :
    law.Tries shows (liftM program : Fallible α) past :=
  Conduct.Tries.lift bound stable

theorem Shows.forM {items : List β} {body : β → Program PUnit}
    (each : ∀ item ∈ items, ∀ now, law.Binds now (body item)) :
    law.Binds past (items.forM body) :=
  Conduct.Along.forM (fun _ _ _ _ => trivial) (fun item member now _ => each item member now)
    trivial

theorem Tries.forM {items : List β} {body : β → Fallible PUnit}
    (each : ∀ item ∈ items, ∀ now, law.Tries (fun _ _ => True) (body item) now) :
    law.Tries (fun _ _ => True) (items.forM body) past :=
  Conduct.Tries.forM (fun _ _ _ _ => trivial) (fun _ _ _ _ _ => trivial)
    (fun item member now _ => each item member now) trivial

theorem Tries.forIn {items : List α} {body : α → PUnit → Fallible (ForInStep PUnit)}
    (each : ∀ item ∈ items, ∀ now, law.Tries (fun _ _ => True) (body item ⟨⟩) now) :
    law.Tries (fun _ _ => True) (ForIn.forIn items PUnit.unit body) past :=
  Conduct.Tries.forIn (fun _ _ _ _ => trivial) (fun _ _ _ _ _ => trivial)
    (fun item member now _ => each item member now) trivial

theorem Tries.binds {program : Fallible α} (bound : law.Tries shows program past) :
    law.Binds past program.run :=
  Shows.binds bound

end Programs

theorem Governs.later {past later : List Event} {strand : Strand}
    (governed : law.Governs past strand) (more : past <:+ later) : law.Governs later strand := by
  induction governed with
  | running bound => exact .running (bound.after more)
  | waiting _inner goesOn ih =>
      exact .waiting ih fun last results further => goesOn last results (more.trans further)

theorem Obeyed.cons {past : List Event} {event : Event} (obeyed : law.Obeyed past)
    (allowed : law.allows past event.effect) : law.Obeyed (event :: past) := by
  intro other earlier member
  rcases List.suffix_cons_iff.mp member with same | inner
  · cases same
    exact allowed
  · exact obeyed other earlier inner

theorem Obeyed.append {later earlier : List Event} (obeyed : law.Obeyed earlier)
    (each : ∀ event between, event :: between <:+ later →
      law.allows (between ++ earlier) event.effect) : law.Obeyed (later ++ earlier) := by
  induction later with
  | nil => exact obeyed
  | cons event later ih =>
      apply Obeyed.cons
      · exact ih fun other between inside =>
          each other between (inside.trans (List.suffix_cons _ _))
      · exact each event later (List.suffix_refl _)

/-- A step of a governed strand performs nothing or what the law allows, and what it leaves or
starts is still governed. -/
theorem Governs.performs {now later : Situation} {strand moved : Strand}
    {operations : List Operation} (kept : law.Kept manager)
    (step : Strand.Step manager timing now strand later moved operations)
    (governed : law.Governs now.past strand) :
    (later.past = now.past ∨
        ∃ event, later.past = event :: now.past ∧ law.allows now.past event.effect) ∧
      law.Governs later.past moved ∧ ∀ operation ∈ operations, law.permits operation := by
  induction step with
  | @perform effect next reply after _single _answer =>
      cases governed with
      | running bound =>
          obtain ⟨⟨allowed, permitted⟩, goesOn⟩ := bound _ (List.suffix_refl _)
          refine ⟨.inr ⟨_, rfl, allowed⟩, .running (goesOn _ _ rfl), ?_⟩
          intro operation member
          cases effect with
          | detach work => exact permitted operation member
          | _ => cases member
  | @fork width work next =>
      cases governed with
      | running bound =>
          obtain ⟨⟨_allowed, permitted⟩, _goesOn⟩ := bound _ (List.suffix_refl _)
          refine ⟨.inl rfl, .waiting ?_ ?_, by simp⟩
          · intro strand member
            obtain ⟨operation, handed, rfl⟩ := List.mem_map.mp member
            exact .running (kept operation (permitted operation handed) _)
          · intro later results more
            obtain ⟨⟨allowed, _permitted⟩, goesOn⟩ := bound later more
            exact ⟨allowed, goesOn results _ rfl⟩
  | @inner later width work before behind strand moved next operations step ih =>
      cases governed with
      | waiting inner goesOn =>
          have more := step.past_suffix
          obtain ⟨performed, governedMoved, permitted⟩ := ih (inner strand (by simp))
          refine ⟨performed, .waiting ?_ ?_, permitted⟩
          · intro other member
            rcases List.mem_append.mp member with inBefore | inRest
            · exact (inner other (by simp [inBefore])).later more
            · rcases List.mem_cons.mp inRest with same | inBehind
              · rw [same]
                exact governedMoved
              · exact (inner other (by simp [inBehind])).later more
          · intro last results further
            exact goesOn last results (more.trans further)
  | @join width work results next =>
      cases governed with
      | waiting _inner goesOn =>
          obtain ⟨allowed, bound⟩ := goesOn now.past results (List.suffix_refl _)
          exact ⟨.inr ⟨_, rfl, allowed⟩, .running bound, by simp⟩

theorem Obeyed.performed {past later : List Event} (obeyed : law.Obeyed past)
    (performed : later = past ∨ ∃ event, later = event :: past ∧ law.allows past event.effect) :
    law.Obeyed later := by
  rcases performed with same | grown
  · rw [same]
    exact obeyed
  · obtain ⟨event, same, allowed⟩ := grown
    rw [same]
    exact obeyed.cons allowed

/-- All strands are governed, and what was performed was allowed. -/
structure Holds (law : Law) (world : World) : Prop where
  governs : ∀ strand ∈ world.strands, law.Governs world.now.past strand
  obeyed : law.Obeyed world.now.past

theorem Holds.opening (law : Law) (surroundings : Surroundings) :
    law.Holds (.opening surroundings) where
  governs := by simp [World.opening]
  obeyed := by
    intro event earlier member
    cases List.suffix_nil.mp member

theorem Holds.act {world next : World} (kept : law.Kept manager)
    (act : World.Act manager timing world next) (holds : law.Holds world) : law.Holds next := by
  cases act with
  | @act now later before behind strand moved operations step =>
      have more := step.past_suffix
      obtain ⟨performed, governed, permitted⟩ :=
        (holds.governs strand (by simp)).performs kept step
      refine ⟨?_, holds.obeyed.performed performed⟩
      intro other member
      have placed : other ∈ before ∨ other = moved ∨ other ∈ behind ∨
          ∃ operation ∈ operations, Strand.start manager operation = other := by
        simpa [or_assoc] using member
      rcases placed with inBefore | rfl | inBehind | ⟨operation, begun, rfl⟩
      · exact (holds.governs other (by simp [inBefore])).later more
      · exact governed
      · exact (holds.governs other (by simp [inBehind])).later more
      · exact .running (kept operation (permitted operation begun) _)

theorem Holds.step {world next : World} {may : Operation → Prop} (kept : law.Kept manager)
    (permitted : ∀ operation, may operation → law.permits operation)
    (step : World.Step manager may world next) (holds : law.Holds world) : law.Holds next := by
  cases step with
  | act act => exact holds.act kept act
  | @call world operation allowed =>
      refine ⟨?_, holds.obeyed⟩
      intro strand member
      rcases List.mem_append.mp member with earlier | begun
      · exact holds.governs strand earlier
      · rw [List.mem_singleton.mp begun]
        exact .running (kept operation (permitted operation allowed) _)
  | register _kept => exact ⟨holds.governs, holds.obeyed⟩

theorem Holds.reaches {world next : World} {may : Operation → Prop} (kept : law.Kept manager)
    (permitted : ∀ operation, may operation → law.permits operation)
    (run : World.Reaches manager may world next) (holds : law.Holds world) : law.Holds next := by
  induction run with
  | refl => exact holds
  | tail _earlier step ih => exact ih.step kept permitted step

end Law

end ZonePropagation.Interleaving
