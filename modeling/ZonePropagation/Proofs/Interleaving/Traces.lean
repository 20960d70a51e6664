import ZonePropagation.Proofs.Interleaving.Answers
/-!
What programs perform by themselves.

A program without waiting performs its effects whatever others do, so that the list of them with
their replies decides its value.
-/

namespace ZonePropagation.Interleaving

open Propagation

def isPlain : Effect → Bool
  | .fork _ _ | .detach _ | .acquire _ => false
  | _ => true

def Plain {α : Type} : Program α → Prop
  | .done _ => True
  | .perform effect next => isPlain effect = true ∧ ∀ reply, Plain (next reply)

/-- What a program performs, the latest first, up to its value. -/
inductive Traces {α : Type} : Program α → List Event → α → Prop
  | done {value : α} : Traces (.done value) [] value
  | perform {effect : Effect} {next : Reply effect → Program α} {reply : Reply effect}
      {events : List Event} {value : α} (rest : Traces (next reply) events value) :
      Traces (.perform effect next) (events ++ [⟨effect, reply⟩]) value

/-- Events, the latest first, lead from some surroundings to others. -/
inductive Leads (timing : Timing) (before : Surroundings) : List Event → Surroundings → Prop
  | nil : Leads timing before [] before
  | cons {events : List Event} {between after : Surroundings} {effect : Effect}
      {reply : Reply effect} (earlier : Leads timing before events between)
      (answer : Answers timing between effect reply after) :
      Leads timing before (⟨effect, reply⟩ :: events) after

variable {α β : Type}

theorem Plain.perform {effect : Effect} (plain : isPlain effect = true) :
    Plain (Propagation.perform effect) := ⟨plain, fun _ => trivial⟩

theorem Plain.bind {program : Program α} {follow : α → Program β} (first : Plain program)
    (second : ∀ events value, Traces program events value → Plain (follow value)) :
    Plain (program >>= follow) := by
  change Plain (program.andThen follow)
  induction program with
  | done value => exact second [] value .done
  | perform effect next ih =>
      refine ⟨first.1, fun reply => ih reply (first.2 reply) ?_⟩
      intro events value trace
      exact second _ value (.perform trace)

theorem Traces.bind {program : Program α} {follow : α → Program β} {events : List Event}
    {value : β} (trace : Traces (program >>= follow) events value) :
    ∃ earlier between later, Traces program earlier between ∧
      Traces (follow between) later value ∧ events = later ++ earlier := by
  change Traces (program.andThen follow) events value at trace
  induction program generalizing events with
  | done between => exact ⟨[], between, events, .done, trace, by simp⟩
  | perform effect next ih =>
      cases trace with
      | @perform _ _ reply rest _ trace =>
          obtain ⟨earlier, between, later, first, second, rfl⟩ := ih reply trace
          exact ⟨_, between, later, .perform first, second, by simp⟩

theorem Leads.append_iff {timing : Timing} {before after : Surroundings}
    {later earlier : List Event} : Leads timing before (later ++ earlier) after ↔
      ∃ between, Leads timing before earlier between ∧ Leads timing between later after := by
  induction later generalizing after with
  | nil =>
      constructor
      · exact fun leads => ⟨after, leads, .nil⟩
      · rintro ⟨between, leads, nothing⟩
        cases nothing
        exact leads
  | cons event later ih =>
      constructor
      · intro leads
        cases leads with
        | cons earlier answer =>
            obtain ⟨between, first, second⟩ := ih.mp earlier
            exact ⟨between, first, .cons second answer⟩
      · rintro ⟨between, first, leads⟩
        cases leads with
        | cons second answer => exact .cons (ih.mpr ⟨between, first, second⟩) answer

theorem Strand.Step.leads {manager : Manager} {timing : Timing} {initial : Surroundings}
    {now later : Situation} {strand moved : Strand} {operations : List Operation}
    (step : Strand.Step manager timing now strand later moved operations)
    (leads : Leads timing initial now.past now.surroundings) :
    Leads timing initial later.past later.surroundings := by
  rcases step.situation with rfl | ⟨effect, reply, after, answer, rfl⟩
  · exact leads
  · exact .cons leads answer

theorem isFork_of_isPlain {effect : Effect} (plain : isPlain effect = true) :
    isFork effect = false := by
  cases effect with
  | fork _ _ => cases plain
  | _ => rfl

theorem Traces.plain {α : Type} {program : Program α} {events : List Event} {value : α}
    (trace : Traces program events value) (plain : Plain program) :
    ∀ event ∈ events, isFork event.effect = false := by
  induction trace with
  | done => simp
  | @perform effect next reply events value rest ih =>
      intro event member
      rcases List.mem_append.mp member with later | first
      · exact ih (plain.2 reply) event later
      · rw [List.mem_singleton.mp first]
        exact isFork_of_isPlain plain.1

/-- The program is plain, and what it performs and its value meet a condition. -/
structure Yields (shows : List Event → α → Prop) (program : Program α) : Prop where
  plain : Plain program
  shown : ∀ events value, Traces program events value → shows events value

namespace Yields

variable {shows : List Event → α → Prop} {final : List Event → β → Prop}

theorem pure {value : α} (met : shows [] value) : Yields shows (Pure.pure value : Program α) where
  plain := trivial
  shown := by
    intro events other trace
    cases trace
    exact met

theorem perform {effect : Effect} (plain : isPlain effect = true) :
    Yields (fun events reply => events = [⟨effect, reply⟩]) (Propagation.perform effect) where
  plain := .perform plain
  shown := by
    intro events reply trace
    cases trace with
    | perform rest =>
        cases rest
        rfl

theorem bind {program : Program α} {follow : α → Program β} (first : Yields shows program)
    (second : ∀ earlier value, shows earlier value →
      Yields (fun later result => final (later ++ earlier) result) (follow value)) :
    Yields final (program >>= follow) where
  plain := first.plain.bind fun earlier value trace =>
    (second earlier value (first.shown earlier value trace)).plain
  shown := by
    intro events result trace
    obtain ⟨earlier, between, later, before, after, rfl⟩ := trace.bind
    exact (second earlier between (first.shown earlier between before)).shown later result after

theorem weaken {weaker : List Event → α → Prop} {program : Program α}
    (yields : Yields shows program)
    (implies : ∀ events value, shows events value → weaker events value) :
    Yields weaker program where
  plain := yields.plain
  shown := fun events value trace => implies events value (yields.shown events value trace)

theorem and {other : List Event → α → Prop} {program : Program α} (yields : Yields shows program)
    (yieldsOther : Yields other program) :
    Yields (fun events value => shows events value ∧ other events value) program where
  plain := yields.plain
  shown := fun events value trace =>
    ⟨yields.shown events value trace, yieldsOther.shown events value trace⟩

end Yields

end ZonePropagation.Interleaving
