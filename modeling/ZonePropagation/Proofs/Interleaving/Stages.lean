import Mathlib.Algebra.Order.Group.Multiset
import Mathlib.Tactic.Abel
import ZonePropagation.Proofs.Interleaving.Law
/-!
Stages of strands.

A protocol says at which stage a program is, and how its effects lead from one stage to the next.
While all strands keep to a protocol, a step of a world is a turn of the stages of its strands.  An
invariant of the turns holds in every world that is reached.
-/

namespace ZonePropagation.Interleaving

open Propagation

/-- Where operations begin and may end, which effects are allowed on the way and where they lead,
and which operations may be handed out. -/
structure Protocol (Stage : Type) where
  begins : Operation → Stage
  ends : Stage → Prop
  allows : Stage → Effect → Prop
  next : Stage → (effect : Effect) → Reply effect → Stage
  permits : Operation → Prop

namespace Protocol

variable {Stage : Type} (protocol : Protocol Stage)

def conduct : Conduct Stage where
  answers := fun stage effect reply after => after = protocol.next stage effect reply
  rely := Eq
  rule := fun stage effect =>
    protocol.allows stage effect ∧ ∀ operation ∈ handedOut effect, protocol.permits operation
  rely_refl := fun _ => rfl
  rely_trans := Eq.trans

abbrev Keeps (program : Program Result) (stage : Stage) : Prop :=
  protocol.conduct.Along (fun last _ => protocol.ends last) program stage

def Kept (manager : Manager) : Prop :=
  ∀ operation, protocol.permits operation →
    protocol.Keeps (manager.program operation) (protocol.begins operation)

mutual

/-- The strand and the strands that it waits for are at these stages. -/
inductive At : Strand → Multiset Stage → Prop
  | running {task : Program Result} {stage : Stage} (keeps : protocol.Keeps task stage) :
      At (.running task) {stage}
  | waiting {width : Nat} {work : List Operation} {strands : List Strand}
      {next : List Result → Program Result} {stage : Stage} {stages : Multiset Stage}
      (allowed : protocol.allows stage (.fork width work)) (inner : Staged strands stages)
      (goesOn : ∀ results,
        protocol.Keeps (next results) (protocol.next stage (.fork width work) results)) :
      At (.waiting width work strands next) (stage ::ₘ stages)

inductive Staged : List Strand → Multiset Stage → Prop
  | nil : Staged [] 0
  | cons {strand : Strand} {strands : List Strand} {first rest : Multiset Stage}
      (here : At strand first) (others : Staged strands rest) :
      Staged (strand :: strands) (first + rest)

end

inductive Turn (timing : Timing) :
    Situation → Multiset Stage → Situation → Multiset Stage → Prop
  | perform {now : Situation} {effect : Effect} {reply : Reply effect} {after : Surroundings}
      {stage : Stage} {rest : Multiset Stage} (single : isFork effect = false)
      (allowed : protocol.allows stage effect)
      (answer : Answers timing now.surroundings effect reply after) :
      Turn timing now (stage ::ₘ rest) (now.following effect reply after)
        (protocol.next stage effect reply ::ₘ (rest + ((started effect).map protocol.begins)))
  | fork {now : Situation} {width : Nat} {work : List Operation} {stage : Stage}
      {rest : Multiset Stage} (allowed : protocol.allows stage (.fork width work)) :
      Turn timing now (stage ::ₘ rest) now (stage ::ₘ (rest + (work.map protocol.begins)))
  | join {now : Situation} {width : Nat} {work : List Operation} {results : List Result}
      {stage : Stage} {rest finished : Multiset Stage}
      (allowed : protocol.allows stage (.fork width work))
      (ended : ∀ last ∈ finished, protocol.ends last) :
      Turn timing now (stage ::ₘ (rest + finished))
        (now.following (.fork width work) results now.surroundings)
        (protocol.next stage (.fork width work) results ::ₘ rest)

variable {protocol} {manager : Manager} {timing : Timing} {strands others : List Strand}
  {stages rest : Multiset Stage}

theorem performs {stage : Stage} {effect : Effect} {goal : Stage → Reply effect → Prop}
    (ruled : protocol.conduct.rule stage effect)
    (met : ∀ reply, goal (protocol.next stage effect reply) reply) :
    protocol.conduct.Along goal (perform effect) stage := by
  apply Conduct.Along.perform
  · rintro later rfl
    exact ruled
  · rintro later reply after rfl rfl last rfl
    exact met reply

/-- A lock can be given back at the stage, which leads to the goal. -/
structure GivesBack (protocol : Protocol Stage) (key : ActionKey) (lock : Nat)
    (goal : Stage → Prop) (stage : Stage) : Prop where
  release : protocol.allows stage (.release lock)
  retire : protocol.allows (protocol.next stage (.release lock) ()) (.retire key lock)
  leave : protocol.allows
    (protocol.next (protocol.next stage (.release lock) ()) (.retire key lock) ()) (.leave lock)
  ends : goal (protocol.next
    (protocol.next (protocol.next stage (.release lock) ()) (.retire key lock) ()) (.leave lock) ())

/-- Work under the lock of a key, which has to leave a stage where the lock can be given back. -/
theorem locked {α : Type} {key : ActionKey} {work : Program α} {goal : Stage → Prop}
    {stage : Stage} (enter : protocol.allows stage (.enter key))
    (acquire : ∀ lock, protocol.allows (protocol.next stage (.enter key) lock) (.acquire lock))
    (within : ∀ lock, protocol.conduct.Along (fun last _ => protocol.GivesBack key lock goal last)
      work (protocol.next (protocol.next stage (.enter key) lock) (.acquire lock) ())) :
    protocol.conduct.Along (fun last _ => goal last) (Propagation.locked key work) stage := by
  have turns : ∀ {effect : Effect} {now : Stage}, protocol.allows now effect →
      handedOut effect = [] → protocol.conduct.Along
        (fun last reply => last = protocol.next now effect reply) (perform effect) now := by
    intro effect now allowed nothing
    apply performs
    · refine ⟨allowed, ?_⟩
      rw [nothing]
      simp
    · exact fun _ => rfl
  unfold Propagation.locked
  apply Conduct.Along.bind (turns enter rfl)
  rintro _ lock rfl
  apply Conduct.Along.bind (turns (acquire lock) rfl)
  rintro _ _ rfl
  apply Conduct.Along.bind (within lock)
  rintro working value ⟨release, retire, leave, ended⟩
  apply Conduct.Along.bind (turns release rfl)
  rintro _ _ rfl
  apply Conduct.Along.bind (turns retire rfl)
  rintro _ _ rfl
  apply Conduct.Along.bind (turns leave rfl)
  rintro _ _ rfl
  exact .pure fun last same => same ▸ ended

theorem Turn.map {Other : Type} {other : Protocol Other} (view : Stage → Other)
    (allows : ∀ stage effect, protocol.allows stage effect → other.allows (view stage) effect)
    (next : ∀ stage effect reply, protocol.allows stage effect →
      view (protocol.next stage effect reply) = other.next (view stage) effect reply)
    (begins : ∀ operation, view (protocol.begins operation) = other.begins operation)
    (ends : ∀ stage, protocol.ends stage → other.ends (view stage))
    {now later : Situation} {after : Multiset Stage}
    (turn : protocol.Turn timing now stages later after) :
    other.Turn timing now (stages.map view) later (after.map view) := by
  have begun : ∀ operations : List Operation,
      (operations.map protocol.begins : Multiset Stage).map view =
        (operations.map other.begins : List Other) := by
    intro operations
    rw [Multiset.map_coe, List.map_map]
    exact congrArg _ (List.map_congr_left fun operation _ => begins operation)
  cases turn with
  | perform single allowed answer =>
      rw [Multiset.map_cons, Multiset.map_cons, Multiset.map_add, begun, next _ _ _ allowed]
      exact .perform single (allows _ _ allowed) answer
  | fork allowed =>
      rw [Multiset.map_cons, Multiset.map_cons, Multiset.map_add, begun]
      exact .fork (allows _ _ allowed)
  | join allowed ended =>
      rw [Multiset.map_cons, Multiset.map_cons, Multiset.map_add, next _ _ _ allowed]
      refine .join (allows _ _ allowed) ?_
      intro last member
      obtain ⟨stage, inside, rfl⟩ := Multiset.mem_map.mp member
      exact ends stage (ended stage inside)

theorem Staged.append (here : protocol.Staged strands stages)
    (there : protocol.Staged others rest) :
    protocol.Staged (strands ++ others) (stages + rest) := by
  induction strands generalizing stages with
  | nil =>
      cases here
      rwa [List.nil_append, zero_add]
  | cons strand strands ih =>
      cases here with
      | cons first more =>
          rw [List.cons_append, add_assoc]
          exact .cons first (ih more)

theorem Staged.split (staged : protocol.Staged (strands ++ others) stages) :
    ∃ here there, protocol.Staged strands here ∧ protocol.Staged others there ∧
      stages = here + there := by
  induction strands generalizing stages with
  | nil => exact ⟨0, stages, .nil, staged, (zero_add stages).symm⟩
  | cons strand strands ih =>
      cases staged with
      | @cons _ _ first _ here more =>
          obtain ⟨near, there, nearby, behind, rfl⟩ := ih more
          exact ⟨first + near, there, .cons here nearby, behind, (add_assoc _ _ _).symm⟩

theorem Staged.one {strand : Strand} (here : protocol.At strand stages) :
    protocol.Staged [strand] stages := by
  have one : protocol.Staged [strand] (stages + 0) := .cons here .nil
  rwa [add_zero] at one

theorem Staged.started (kept : protocol.Kept manager) {operations : List Operation}
    (permitted : ∀ operation ∈ operations, protocol.permits operation) :
    protocol.Staged (operations.map (Strand.start manager))
      (operations.map protocol.begins : List Stage) := by
  induction operations with
  | nil => exact .nil
  | cons operation operations ih =>
      have begun : protocol.At (.start manager operation) {protocol.begins operation} :=
        .running (kept operation (permitted operation (by simp)))
      exact .cons begun (ih fun other member => permitted other (by simp [member]))

theorem Staged.ended {results : List Result}
    (staged : protocol.Staged (results.map fun result => .running (.done result)) stages) :
    ∀ last ∈ stages, protocol.ends last := by
  induction results generalizing stages with
  | nil =>
      cases staged
      simp
  | cons result results ih =>
      cases staged with
      | cons here more =>
          cases here with
          | @running _ stage keeps =>
              intro last member
              rcases Multiset.mem_add.mp member with first | later
              · rw [Multiset.mem_singleton.mp first]
                exact keeps stage rfl
              · exact ih more last later

mutual

theorem At.unique
    (determined : ∀ program left right, protocol.Keeps program left →
      protocol.Keeps program right → left = right)
    (resting : ∀ stage width work results,
      protocol.next stage (.fork width work) results = stage) :
    ∀ {strand : Strand} {first second : Multiset Stage},
      protocol.At strand first → protocol.At strand second → first = second
  | _, _, _, .running keeps, .running same => by rw [determined _ _ _ keeps same]
  | _, _, _, .waiting _ inner goesOn, .waiting _ sameInner sameGoesOn => by
      have outer := determined _ _ _ (goesOn []) (sameGoesOn [])
      rw [resting, resting] at outer
      have inside := Staged.unique determined resting inner sameInner
      rw [outer, inside]

theorem Staged.unique
    (determined : ∀ program left right, protocol.Keeps program left →
      protocol.Keeps program right → left = right)
    (resting : ∀ stage width work results,
      protocol.next stage (.fork width work) results = stage) :
    ∀ {strands : List Strand} {first second : Multiset Stage},
      protocol.Staged strands first → protocol.Staged strands second → first = second
  | _, _, _, .nil, .nil => rfl
  | _, _, _, .cons here others, .cons sameHere sameOthers => by
      have same := At.unique determined resting here sameHere
      have rest := Staged.unique determined resting others sameOthers
      rw [same, rest]

end

/-- A step of a strand is a turn of its stages, whatever the stages of the other strands are. -/
theorem At.step {now later : Situation} {strand moved : Strand} {operations : List Operation}
    (kept : protocol.Kept manager)
    (step : Strand.Step manager timing now strand later moved operations)
    (here : protocol.At strand stages) :
    ∃ after, protocol.At moved after ∧
      (∀ operation ∈ operations, protocol.permits operation) ∧ ∀ rest,
        protocol.Turn timing now (stages + rest) later
          (after + rest + (operations.map protocol.begins : List Stage)) := by
  induction step generalizing stages with
  | @perform effect next reply after single answer =>
      cases here with
      | @running _ stage keeps =>
          obtain ⟨⟨allowed, permitted⟩, goesOn⟩ := keeps stage rfl
          refine ⟨_, .running (goesOn reply _ rfl), ?_, ?_⟩
          · intro operation member
            cases effect with
            | detach work => exact permitted operation member
            | _ => cases member
          · intro rest
            rw [Multiset.singleton_add, Multiset.singleton_add, Multiset.cons_add]
            exact .perform single allowed answer
  | @fork width work next =>
      cases here with
      | @running _ stage keeps =>
          obtain ⟨⟨allowed, permitted⟩, goesOn⟩ := keeps stage rfl
          refine ⟨_, .waiting allowed (.started kept permitted)
            (fun results => goesOn results _ rfl), by simp, ?_⟩
          intro rest
          rw [Multiset.singleton_add, List.map_nil, Multiset.coe_nil, add_zero,
            Multiset.cons_add, add_comm]
          exact .fork allowed
  | @inner later width work before behind strand moved next operations step ih =>
      cases here with
      | @waiting _ _ _ _ stage _ allowed inner goesOn =>
          obtain ⟨first, more, near, there, rfl⟩ := inner.split
          cases there with
          | @cons _ _ mine others atStrand far =>
              obtain ⟨after, atMoved, permitted, turn⟩ := ih atStrand
              refine ⟨_, .waiting allowed (near.append (.cons atMoved far)) goesOn, permitted, ?_⟩
              intro rest
              have turned := turn (stage ::ₘ (first + others + rest))
              have from_here : mine + stage ::ₘ (first + others + rest) =
                  stage ::ₘ (first + (mine + others)) + rest := by
                simp only [← Multiset.singleton_add]
                abel
              have to_there : after + stage ::ₘ (first + others + rest) =
                  stage ::ₘ (first + (after + others)) + rest := by
                simp only [← Multiset.singleton_add]
                abel
              rwa [from_here, to_there] at turned
  | @join width work results next =>
      cases here with
      | @waiting _ _ _ _ stage finished allowed inner goesOn =>
          refine ⟨_, .running (goesOn results), by simp, ?_⟩
          intro rest
          rw [List.map_nil, Multiset.coe_nil, add_zero, Multiset.cons_add, Multiset.singleton_add,
            add_comm finished]
          exact .join allowed inner.ended

theorem Staged.act {world next : World} (kept : protocol.Kept manager)
    (act : World.Act manager timing world next)
    (staged : protocol.Staged world.strands stages) :
    ∃ after, protocol.Staged next.strands after ∧
      protocol.Turn timing world.now stages next.now after := by
  cases act with
  | @act now later before behind strand moved operations step =>
      obtain ⟨first, more, near, there, rfl⟩ := staged.split
      cases there with
      | @cons _ _ mine others atStrand far =>
          obtain ⟨after, atMoved, permitted, turn⟩ := atStrand.step kept step
          refine ⟨_, (near.append (.cons atMoved far)).append (.started kept permitted), ?_⟩
          have turned := turn (first + others)
          rwa [add_left_comm mine, add_left_comm after] at turned

theorem Staged.reaches {invariant : Situation → Multiset Stage → Prop}
    {may : Operation → Prop} {world last : World} (kept : protocol.Kept manager)
    (permitted : ∀ operation, may operation → protocol.permits operation)
    (turns : ∀ now stages later after, protocol.Turn anytime now stages later after →
      invariant now stages → invariant later after)
    (calls : ∀ now stages operation, may operation → invariant now stages →
      invariant now (protocol.begins operation ::ₘ stages))
    (registers : ∀ surroundings past stages registry, invariant ⟨surroundings, past⟩ stages →
      invariant ⟨{ surroundings with registry }, past⟩ stages)
    (staged : protocol.Staged world.strands stages) (holds : invariant world.now stages)
    (run : World.Reaches manager may world last) :
    ∃ after, protocol.Staged last.strands after ∧ invariant last.now after := by
  induction run with
  | refl => exact ⟨stages, staged, holds⟩
  | tail _earlier step ih =>
      obtain ⟨before, stagedBefore, held⟩ := ih
      cases step with
      | act act =>
          obtain ⟨after, stagedAfter, turn⟩ := stagedBefore.act kept act
          exact ⟨after, stagedAfter, turns _ _ _ _ turn held⟩
      | @call _ operation allowed =>
          have begun : protocol.At (.start manager operation) {protocol.begins operation} :=
            .running (kept operation (permitted operation allowed))
          refine ⟨_, stagedBefore.append (.one begun), ?_⟩
          rw [add_comm, Multiset.singleton_add]
          exact calls _ _ operation allowed held
      | register _kept => exact ⟨before, stagedBefore, registers _ _ _ _ held⟩

end Protocol

def Only {α : Type} (allowed : Effect → Prop) : Program α → Prop
  | .done _ => True
  | .perform effect next => allowed effect ∧ ∀ reply, Only allowed (next reply)

namespace Only

variable {α β : Type} {allowed weaker : Effect → Prop}

theorem pure (value : α) : Only allowed (Pure.pure value : Program α) := trivial

theorem perform {effect : Effect} (here : allowed effect) :
    Only allowed (Propagation.perform effect) := ⟨here, fun _ => trivial⟩

theorem bind {program : Program α} {follow : α → Program β} (first : Only allowed program)
    (second : ∀ value, Only allowed (follow value)) : Only allowed (program >>= follow) := by
  change Only allowed (program.andThen follow)
  induction program with
  | done value => exact second value
  | perform effect next ih => exact ⟨first.1, fun reply => ih reply (first.2 reply)⟩

theorem weaken {program : Program α} (only : Only allowed program)
    (implies : ∀ effect, allowed effect → weaker effect) : Only weaker program := by
  induction program with
  | done value => trivial
  | perform effect next ih => exact ⟨implies effect only.1, fun reply => ih reply (only.2 reply)⟩

theorem tries {program : Fallible α} {follow : α → Fallible β} (first : Only allowed program.run)
    (second : ∀ value, Only allowed (follow value).run) :
    Only allowed (program >>= follow).run := by
  apply first.bind
  rintro (fault | value)
  · trivial
  · exact second value

theorem lift {program : Program α} (only : Only allowed program) :
    Only allowed (liftM program : Fallible α).run :=
  only.bind fun _ => trivial

theorem forM {items : List β} {body : β → Program PUnit}
    (each : ∀ item ∈ items, Only allowed (body item)) : Only allowed (items.forM body) := by
  induction items with
  | nil => trivial
  | cons item items ih =>
      apply (each item (by simp)).bind
      intro _done
      exact ih fun other member => each other (by simp [member])

theorem triesForM {items : List β} {body : β → Fallible PUnit}
    (each : ∀ item ∈ items, Only allowed (body item).run) :
    Only allowed (items.forM body).run := by
  induction items with
  | nil => trivial
  | cons item items ih =>
      apply (each item (by simp)).tries
      intro _done
      exact ih fun other member => each other (by simp [member])

theorem triesForIn {items : List α} {body : α → PUnit → Fallible (ForInStep PUnit)}
    (each : ∀ item ∈ items, Only allowed (body item ⟨⟩).run) :
    Only allowed (ForIn.forIn items PUnit.unit body : Fallible PUnit).run := by
  induction items with
  | nil => trivial
  | cons item items ih =>
      rw [List.forIn_cons]
      apply (each item (by simp)).tries
      intro next
      cases next with
      | done _ => trivial
      | yield _ => exact ih fun other member => each other (by simp [member])

theorem along {Stage : Type} {protocol : Protocol Stage} {stage : Stage} {program : Program α}
    (only : Only allowed program)
    (stays : ∀ effect, allowed effect → protocol.conduct.rule stage effect ∧
      ∀ reply, protocol.next stage effect reply = stage) :
    protocol.conduct.Along (fun last _ => last = stage) program stage := by
  induction program with
  | done value =>
      rintro later rfl
      rfl
  | perform effect next ih =>
      rintro later rfl
      obtain ⟨ruled, same⟩ := stays effect only.1
      refine ⟨ruled, ?_⟩
      rintro reply after rfl
      rw [same reply]
      exact ih reply (only.2 reply)

end Only

end ZonePropagation.Interleaving
