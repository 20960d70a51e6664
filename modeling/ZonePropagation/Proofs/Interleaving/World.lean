import Mathlib.Logic.Relation
import ZonePropagation.Propagation.Surroundings
/-!
All orders in which the work of a manager may go on.

A strand is a program in progress.  One strand at a time performs one effect, and any strand that
need not wait may be the next.  What nameservers answer, what the drivers of targets meet with and
what the clocks show is left open, so that a fact about every run holds of every schedule and every
behaviour of the outside world.
-/

namespace ZonePropagation.Interleaving

open Propagation

structure Event where
  effect : Effect
  reply : Reply effect

structure Situation where
  surroundings : Surroundings
  past : List Event

def Situation.following (now : Situation) (effect : Effect) (reply : Reply effect)
    (surroundings : Surroundings) : Situation :=
  ⟨surroundings, ⟨effect, reply⟩ :: now.past⟩

abbrev Timing := Surroundings → Effect → Status.Clock → Prop

def anytime : Timing := fun _ _ _ => True

/-- The possible replies to an effect, with the surroundings that it leaves.  Nameservers may
answer anything, a lock is acquired only while it is free, and the results of work that was handed
out are those of its strands.  All else is replied to by the surroundings, whose drivers may meet
with any responses. -/
def Answers (timing : Timing) (before : Surroundings) :
    (effect : Effect) → Reply effect → Surroundings → Prop
  | .probe _ _ _ _, _, after => after = before
  | .awaitTick _, _, after => after = before
  | .acquire lock, _, after =>
      before.locks.isFree lock = true ∧ after = { before with locks := before.locks.hold lock }
  | .fork _ _, _, after => after = before
  | effect, reply, after =>
      ∃ (Outside : Type) (channel : Provisioner.Channel (StateM Outside)) (clock : Status.Clock)
        (outside outside' : Outside),
        timing before effect clock ∧
          ((Surroundings.answer channel clock effect).run before).run outside =
            ((reply, after), outside')

inductive Strand where
  | running (task : Program Result)
  | waiting (width : Nat) (work : List Operation) (strands : List Strand)
      (next : List Result → Program Result)

def Strand.start (manager : Manager) (operation : Operation) : Strand :=
  .running (manager.program operation)

def isFork : Effect → Bool
  | .fork _ _ => true
  | _ => false

def started : Effect → List Operation
  | .detach work => work
  | _ => []

/-- One step of a strand, with the operations that it starts.  The strands of work that was handed
out take their steps in any order, and their parent goes on when all have results. -/
inductive Strand.Step (manager : Manager) (timing : Timing) :
    Situation → Strand → Situation → Strand → List Operation → Prop
  | perform {now : Situation} {effect : Effect} {next : Reply effect → Program Result}
      {reply : Reply effect} {after : Surroundings} (single : isFork effect = false)
      (answer : Answers timing now.surroundings effect reply after) :
      Step manager timing now (.running (.perform effect next))
        (now.following effect reply after) (.running (next reply)) (started effect)
  | fork {now : Situation} {width : Nat} {work : List Operation}
      {next : List Result → Program Result} :
      Step manager timing now (.running (.perform (.fork width work) next))
        now (.waiting width work (work.map (Strand.start manager)) next) []
  | inner {now later : Situation} {width : Nat} {work : List Operation}
      {before behind : List Strand} {strand moved : Strand}
      {next : List Result → Program Result} {operations : List Operation}
      (step : Step manager timing now strand later moved operations) :
      Step manager timing now (.waiting width work (before ++ strand :: behind) next)
        later (.waiting width work (before ++ moved :: behind) next) operations
  | join {now : Situation} {width : Nat} {work : List Operation} {results : List Result}
      {next : List Result → Program Result} :
      Step manager timing now
        (.waiting width work (results.map fun result => .running (.done result)) next)
        (now.following (.fork width work) results now.surroundings) (.running (next results)) []

theorem Strand.Step.situation {manager : Manager} {timing : Timing} {now later : Situation}
    {strand moved : Strand} {operations : List Operation}
    (step : Strand.Step manager timing now strand later moved operations) :
    later = now ∨ ∃ effect reply after,
      Answers timing now.surroundings effect reply after ∧
        later = now.following effect reply after := by
  induction step with
  | perform _single answer => exact .inr ⟨_, _, _, answer, rfl⟩
  | fork => exact .inl rfl
  | inner _step ih => exact ih
  | join => exact .inr ⟨.fork _ _, _, _, rfl, rfl⟩

theorem Strand.Step.past_suffix {manager : Manager} {timing : Timing} {now later : Situation}
    {strand moved : Strand} {operations : List Operation}
    (step : Strand.Step manager timing now strand later moved operations) :
    now.past <:+ later.past := by
  rcases step.situation with rfl | ⟨effect, reply, after, -, rfl⟩
  · exact List.suffix_refl _
  · exact List.suffix_cons _ _

structure World where
  now : Situation
  strands : List Strand

namespace World

def opening (surroundings : Surroundings) : World := ⟨⟨surroundings, []⟩, []⟩

inductive Act (manager : Manager) (timing : Timing) : World → World → Prop
  | act {now later : Situation} {before behind : List Strand} {strand moved : Strand}
      {operations : List Operation}
      (step : Strand.Step manager timing now strand later moved operations) :
      Act manager timing ⟨now, before ++ strand :: behind⟩
        ⟨later, before ++ moved :: behind ++ operations.map (Strand.start manager)⟩

/-- One step of a manager in use: a strand takes a step, an operation begins that may begin, or a
zone is registered anew. -/
inductive Step (manager : Manager) (may : Operation → Prop) : World → World → Prop
  | act {world next : World} (act : Act manager anytime world next) : Step manager may world next
  | call {world : World} {operation : Operation} (allowed : may operation) :
      Step manager may world
        { world with strands := world.strands ++ [.start manager operation] }
  | register {past : List Event} {surroundings : Surroundings} {strands : List Strand}
      {zones : Registry.Memory} {zone : Zone}
      (kept : surroundings.registry = .memory zones) :
      Step manager may ⟨⟨surroundings, past⟩, strands⟩
        ⟨⟨{ surroundings with registry := .memory (zones.insertZone zone) }, past⟩, strands⟩

theorem Act.situation {manager : Manager} {timing : Timing} {world next : World}
    (act : Act manager timing world next) :
    next.now = world.now ∨ ∃ effect reply after,
      Answers timing world.now.surroundings effect reply after ∧
        next.now = world.now.following effect reply after := by
  cases act with
  | act step => exact step.situation

theorem Step.situation {manager : Manager} {may : Operation → Prop} {world next : World}
    (step : Step manager may world next) :
    next.now = world.now ∨
      (∃ effect reply after, Answers anytime world.now.surroundings effect reply after ∧
        next.now = world.now.following effect reply after) ∨
      ∃ zones zone, world.now.surroundings.registry = .memory zones ∧
        next.now = ⟨{ world.now.surroundings with registry := .memory (zones.insertZone zone) },
          world.now.past⟩ := by
  cases step with
  | act act =>
      rcases act.situation with same | answered
      · exact .inl same
      · exact .inr (.inl answered)
  | call _allowed => exact .inl rfl
  | register kept => exact .inr (.inr ⟨_, _, kept, rfl⟩)

abbrev Reaches (manager : Manager) (may : Operation → Prop) : World → World → Prop :=
  Relation.ReflTransGen (Step manager may)

end World

end ZonePropagation.Interleaving
