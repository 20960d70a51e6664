import ZonePropagation.Proofs.Interleaving.Meanwhile
/-!
A strand that works alone.

No other strand steps in between, but work that the strand hands out is still done in any order.  A
strand settles when it ends in every order, for every reply, and nothing keeps it from ending.
-/

namespace ZonePropagation.Interleaving

open Propagation

/-- The strand ends with a result that meets the goal, whatever step comes next each time, and there
is a next step until then. -/
inductive Strand.Settles (manager : Manager) (timing : Timing) (goal : Situation → Result → Prop) :
    Situation → Strand → Prop
  | done {now : Situation} {result : Result} (met : goal now result) :
      Settles manager timing goal now (.running (.done result))
  | steps {now : Situation} {strand : Strand}
      (can : ∃ later moved operations,
        Strand.Step manager anytime now strand later moved operations)
      (starts : ∀ later moved operations,
        Strand.Step manager timing now strand later moved operations → operations = [])
      (all : ∀ later moved operations,
        Strand.Step manager timing now strand later moved operations →
          Settles manager timing goal later moved) :
      Settles manager timing goal now strand

theorem Strand.Settles.weaken {manager : Manager} {timing : Timing}
    {goal weaker : Situation → Result → Prop} {now : Situation} {strand : Strand}
    (settles : Strand.Settles manager timing goal now strand)
    (implies : ∀ later result, goal later result → weaker later result) :
    Strand.Settles manager timing weaker now strand := by
  induction settles with
  | done met => exact .done (implies _ _ met)
  | steps can starts _all ih => exact .steps can starts ih

theorem Strand.Settles.of_done {manager : Manager} {timing : Timing}
    {goal : Situation → Result → Prop} {now : Situation} {result : Result}
    (settles : Strand.Settles manager timing goal now (.running (.done result))) :
    goal now result := by
  cases settles with
  | done met => exact met
  | steps can _starts _all =>
      obtain ⟨later, moved, operations, step⟩ := can
      cases step

theorem Strand.settles_iff {manager : Manager} {timing : Timing}
    {goal : Situation → Result → Prop} {now : Situation} {strand : Strand} :
    Strand.Settles manager timing goal now strand ↔
      Strand.Arrives manager timing .none (fun later ended =>
        ∃ result, ended = .running (.done result) ∧ goal later result) now strand := by
  constructor
  · intro settles
    induction settles with
    | done met => exact .here ⟨_, rfl, met⟩
    | steps can starts _all ih =>
        refine .steps ?_ ?_ ?_
        · rintro _ rfl
          exact can
        · rintro _ later moved operations rfl
          exact starts later moved operations
        · rintro _ later moved operations rfl
          exact ih later moved operations
  · intro arrives
    induction arrives with
    | here met =>
        obtain ⟨result, rfl, met⟩ := met
        exact .done met
    | steps can starts _all ih =>
        exact .steps (can _ rfl) (fun later moved operations => starts _ later moved operations rfl)
          fun later moved operations => ih _ later moved operations rfl

structure Completed (manager : Manager) (timing : Timing) (now : Situation)
    (work : List Operation) (results : List Result) (later : Situation) : Prop where
  events : ∃ events, Interleaved manager work results events ∧
    Leads timing now.surroundings events later.surroundings ∧ later.past = events ++ now.past

/-- What a program performs alone, the latest first, up to its value.  Work that it hands out is
done where it is handed out. -/
inductive Performs {α : Type} (manager : Manager) : Program α → List Event → α → Prop
  | done {value : α} : Performs manager (.done value) [] value
  | perform {effect : Effect} {next : Reply effect → Program α} {reply : Reply effect}
      {events : List Event} {value : α} (single : isFork effect = false)
      (rest : Performs manager (next reply) events value) :
      Performs manager (.perform effect next) (events ++ [⟨effect, reply⟩]) value
  | fork {width : Nat} {work : List Operation} {next : List Result → Program α}
      {results : List Result} {inner events : List Event} {value : α}
      (worked : Interleaved manager work results inner)
      (rest : Performs manager (next results) events value) :
      Performs manager (.perform (.fork width work) next)
        (events ++ ⟨.fork width work, results⟩ :: inner) value

/-- All that the program performs is of a kind, and so is all that its work performs. -/
abbrev Throughout {α : Type} (manager : Manager) (kind : Effect → Prop) (program : Program α) :
    Prop :=
  Only (fun effect => kind effect ∧
    ∀ operation ∈ handedOut effect, Only kind (manager.program operation)) program

theorem Throughout.sideBySide {manager : Manager} {kind : Effect → Prop} {work : List Operation}
    (here : ∀ width, kind (.fork width work))
    (each : ∀ operation ∈ work, Only kind (manager.program operation)) :
    Throughout manager kind (Propagation.sideBySide work) :=
  .perform ⟨here _, each⟩

section Performances

variable {α β : Type} {manager : Manager} {events : List Event}

theorem Performs.of_pure {value other : α}
    (performs : Performs manager (Pure.pure value : Program α) events other) :
    events = [] ∧ value = other := by
  cases performs with
  | done => exact ⟨rfl, rfl⟩

theorem Performs.bind {program : Program α} {follow : α → Program β} {value : β}
    (performs : Performs manager (program >>= follow) events value) :
    ∃ earlier between later, Performs manager program earlier between ∧
      Performs manager (follow between) later value ∧ events = later ++ earlier := by
  change Performs manager (program.andThen follow) events value at performs
  induction program generalizing events with
  | done between => exact ⟨[], between, events, .done, performs, by simp⟩
  | perform effect next ih =>
      cases performs with
      | perform single rest =>
          obtain ⟨earlier, between, later, first, second, rfl⟩ := ih _ rest
          exact ⟨_, between, later, .perform single first, second, by simp⟩
      | @fork width work next results inner events value worked rest =>
          obtain ⟨earlier, between, later, first, second, rfl⟩ := ih results rest
          exact ⟨_, between, later, .fork worked first, second, by simp⟩

theorem Performs.tries {program : Fallible α} {follow : α → Fallible β} {value : β}
    (performs : Performs manager (program >>= follow).run events (.ok value)) :
    ∃ earlier between later, Performs manager program.run earlier (.ok between) ∧
      Performs manager (follow between).run later (.ok value) ∧ events = later ++ earlier := by
  rw [ExceptT.run_bind] at performs
  obtain ⟨earlier, outcome, later, first, second, rfl⟩ := performs.bind
  cases outcome with
  | ok between => exact ⟨earlier, between, later, first, second, rfl⟩
  | error fault => cases second

theorem Performs.lift {program : Program α} {value : α}
    (performs : Performs manager (liftM program : Fallible α).run events (.ok value)) :
    Performs manager program events value := by
  obtain ⟨earlier, between, later, first, second, rfl⟩ := Performs.bind performs
  cases second with
  | done => exact first

theorem Performs.sideBySide {work : List Operation} {results : List Result}
    (performs : Performs manager (Propagation.sideBySide work) events results) :
    ∃ inner, Interleaved manager work results inner ∧
      events = ⟨.fork work.length work, results⟩ :: inner := by
  cases performs with
  | perform single _rest => cases single
  | fork worked rest =>
      cases rest with
      | done => exact ⟨_, worked, rfl⟩

private theorem Traces.kind {kind : Effect → Prop} {program : Program α} {value : α}
    (traces : Traces program events value) (only : Only kind program) :
    ∀ event ∈ events, kind event.effect := by
  induction traces with
  | done =>
      intro event member
      cases member
  | perform _rest ih =>
      intro event member
      rcases List.mem_append.mp member with later | first
      · exact ih (only.2 _) event later
      · rw [List.mem_singleton.mp first]
        exact only.1

theorem Interleaved.kind {kind : Effect → Prop} {work : List Operation} {results : List Result}
    (worked : Interleaved manager work results events)
    (only : ∀ operation ∈ work, Only kind (manager.program operation)) :
    ∀ event ∈ events, kind event.effect := by
  obtain ⟨shares, rfl, -, traces, permuted, -⟩ := worked
  intro event member
  obtain ⟨share, inside, performed⟩ := List.mem_flatMap.mp (permuted.mem_iff.mp member)
  exact (traces share inside).kind (only _ (List.mem_map_of_mem inside)) event performed

theorem Performs.kind {kind : Effect → Prop} {program : Program α} {value : α}
    (performs : Performs manager program events value) (only : Throughout manager kind program) :
    ∀ event ∈ events, kind event.effect := by
  induction performs with
  | done =>
      intro event member
      cases member
  | perform _single _rest ih =>
      intro event member
      rcases List.mem_append.mp member with later | first
      · exact ih (only.2 _) event later
      · rw [List.mem_singleton.mp first]
        exact only.1.1
  | fork worked _rest ih =>
      intro event member
      rcases List.mem_append.mp member with later | here
      · exact ih (only.2 _) event later
      · rcases List.mem_cons.mp here with rfl | inner
        · exact only.1.1
        · exact worked.kind only.1.2 event inner

end Performances

section Work

variable {manager : Manager} {timing : Timing}

/-- Nobody interferes, and work that is handed out is completed at once. -/
def solo (manager : Manager) (timing : Timing) : Conduct Situation where
  answers := fun now effect reply after =>
    (isFork effect = false ∧ ∃ left, Answers timing now.surroundings effect reply left ∧
      after = now.following effect reply left) ∨
    ∃ width work results later, (⟨effect, reply⟩ : Event) = ⟨.fork width work, results⟩ ∧
      Completed manager timing now work results later ∧
        after = later.following (.fork width work) results later.surroundings
  rely := fun now later => now = later
  rule := fun now effect =>
    (∀ lock, effect = .acquire lock → now.surroundings.locks.isFree lock = true) ∧
      (∀ work, effect ≠ .detach work) ∧
        ∀ width work, effect = .fork width work →
          ∀ operation ∈ work, Plain (manager.program operation)
  rely_refl := fun _ => rfl
  rely_trans := fun first second => first.trans second

private theorem Fulfilled.completed {now later : Situation} {work : List Operation}
    {results : List Result} (fulfilled : Fulfilled manager timing .none now work results later) :
    Completed manager timing now work results later := by
  obtain ⟨events, worked, passes⟩ := fulfilled
  exact ⟨events, worked, passes.leads, passes.past⟩

private theorem amid_of_solo {α : Type} {goal : Situation → α → Prop} {program : Program α}
    {now : Situation} (along : (solo manager timing).Along goal program now) :
    (amid manager timing .none).Along goal program now := by
  induction program generalizing now with
  | done value => exact along
  | perform effect next ih =>
      rintro later rfl
      obtain ⟨allowed, goesOn⟩ := along now rfl
      refine ⟨allowed, ?_⟩
      rintro reply after (single | ⟨width, work, results, last, same, fulfilled, left⟩)
      · exact ih reply (goesOn reply after (.inl single))
      · exact ih reply (goesOn reply after
          (.inr ⟨width, work, results, last, same, fulfilled.completed, left⟩))

theorem Strand.Settles.fork {goal : Situation → Result → Prop} {now : Situation} {width : Nat}
    {work : List Operation} {next : List Result → Program Result}
    (settles : Strand.Settles manager timing goal now
      (.waiting width work (work.map (Strand.start manager)) next)) :
    Strand.Settles manager timing goal now (.running (.perform (.fork width work) next)) := by
  apply Strand.settles_iff.mpr
  apply Strand.Arrives.fork
  rintro _ rfl
  exact Strand.settles_iff.mp settles

theorem Strand.Settles.bind {α : Type} {goal : Situation → Result → Prop} {program : Program α}
    {follow : α → Program Result} {now : Situation}
    (along : (solo manager timing).Along (fun later value =>
      Strand.Settles manager timing goal later (.running (follow value))) program now) :
    Strand.Settles manager timing goal now (.running (program >>= follow)) := by
  apply Strand.settles_iff.mpr
  apply Strand.Arrives.bind
  apply amid_of_solo
  exact along.weaken fun later value settles => Strand.settles_iff.mp settles

theorem Strand.Settles.of_along {goal : Situation → Result → Prop} {program : Program Result}
    {now : Situation} (along : (solo manager timing).Along goal program now) :
    Strand.Settles manager timing goal now (.running program) := by
  rw [← bind_pure program]
  apply Strand.Settles.bind
  exact along.weaken fun later result met => .done met

theorem solo_leads {α : Type} {goal : Situation → α → Prop} {program : Program α} {now : Situation}
    (along : (solo manager timing).Along goal program now) :
    (solo manager timing).Along (fun later value => goal later value ∧ ∃ events,
      later.past = events ++ now.past ∧ Leads timing now.surroundings events later.surroundings ∧
        Performs manager program events value)
      program now := by
  induction program generalizing now with
  | done value =>
      rintro later rfl
      exact ⟨along now rfl, [], rfl, .nil, .done⟩
  | perform effect next ih =>
      rintro later rfl
      obtain ⟨allowed, goesOn⟩ := along now rfl
      refine ⟨allowed, ?_⟩
      intro reply after answered
      apply (ih reply (goesOn reply after answered)).weaken
      rintro last value ⟨met, events, past, leads, performs⟩
      refine ⟨met, ?_⟩
      rcases answered with
        ⟨single, left, answer, rfl⟩ | ⟨width, work, results, later, same, completed, rfl⟩
      · have first : Leads timing now.surroundings [⟨effect, reply⟩] left := .cons .nil answer
        refine ⟨events ++ [⟨effect, reply⟩], ?_, Leads.append_iff.mpr ⟨_, first, leads⟩,
          .perform single performs⟩
        rw [past, List.append_assoc]
        rfl
      · cases same
        obtain ⟨inner, worked, led, begun⟩ := completed
        have first : Leads timing now.surroundings (⟨.fork width work, results⟩ :: inner)
            later.surroundings := .cons led rfl
        refine ⟨events ++ ⟨.fork width work, results⟩ :: inner, ?_,
          Leads.append_iff.mpr ⟨_, first, leads⟩, .fork worked performs⟩
        rw [past, List.append_assoc]
        change events ++ (_ :: later.past) = _
        rw [begun]
        rfl

theorem solo_grows {α : Type} {goal : Situation → α → Prop} {program : Program α} {now : Situation}
    (along : (solo manager timing).Along goal program now) :
    (solo manager timing).Along (fun later value => goal later value ∧ now.past <:+ later.past)
      program now := by
  apply (solo_leads along).weaken
  rintro later value ⟨met, events, past, -, -⟩
  exact ⟨met, events, past.symm⟩

theorem solo_performs {effect : Effect} {goal : Situation → Reply effect → Prop} {now : Situation}
    (single : isFork effect = false)
    (free : ∀ lock, effect = .acquire lock → now.surroundings.locks.isFree lock = true)
    (waited : ∀ work, effect ≠ .detach work)
    (met : ∀ reply left, Answers timing now.surroundings effect reply left →
      goal (now.following effect reply left) reply) :
    (solo manager timing).Along goal (perform effect) now := by
  refine Conduct.Along.perform ?_ ?_
  · rintro later rfl
    refine ⟨free, waited, ?_⟩
    rintro width work rfl
    cases single
  · rintro later reply after rfl answered last rfl
    rcases answered with ⟨-, left, answer, rfl⟩ | ⟨width, work, results, later, same, -, -⟩
    · exact met reply left answer
    · cases same
      cases single

theorem solo_performs_plain {effect : Effect} {goal : Situation → Reply effect → Prop}
    {now : Situation} (plain : isPlain effect = true)
    (met : ∀ reply left, Answers timing now.surroundings effect reply left →
      goal (now.following effect reply left) reply) :
    (solo manager timing).Along goal (perform effect) now := by
  apply solo_performs
  · cases effect with
    | fork _ _ => cases plain
    | _ => rfl
  · rintro lock rfl
    cases plain
  · rintro work rfl
    cases plain
  · exact met

theorem solo_forks {width : Nat} {work : List Operation}
    {shows : Operation → List Event → Result → Prop}
    {goal : Situation → List Result → Prop} {now : Situation}
    (yields : ∀ operation ∈ work, Yields (shows operation) (manager.program operation))
    (met : ∀ (shares : List Share) events after, shares.map Share.operation = work →
      (∀ share ∈ shares, shows share.operation share.events share.result) →
      events.Perm (shares.flatMap Share.events) → Leads timing now.surroundings events after →
      goal (Situation.following ⟨after, events ++ now.past⟩ (.fork width work)
        (shares.map Share.result) after) (shares.map Share.result)) :
    (solo manager timing).Along goal (perform (.fork width work)) now := by
  refine Conduct.Along.perform ?_ ?_
  · rintro later rfl
    refine ⟨fun lock waits => (by cases waits), fun other waits => (by cases waits), ?_⟩
    intro others handed same operation member
    cases same
    exact (yields operation member).plain
  · rintro later reply after rfl answered last rfl
    rcases answered with ⟨single, -⟩ | ⟨_, _, results, ⟨surroundings, past⟩, same, completed, rfl⟩
    · cases single
    · cases same
      obtain ⟨events, ⟨shares, sameWork, rfl, traces, permuted, -⟩, leads, rfl⟩ := completed
      apply met shares events surroundings sameWork ?_ permuted leads
      intro share member
      apply (yields share.operation ?_).shown _ _ (traces share member)
      rw [← sameWork]
      exact List.mem_map_of_mem member

end Work

/-- Operations one after the other, each begun when the one before has ended.  The goal is on the
situation that they leave and on their results. -/
def InTurn (manager : Manager) (timing : Timing) :
    List Operation → (Situation → List Result → Prop) → Situation → Prop
  | [], goal, now => goal now []
  | operation :: rest, goal, now =>
      Strand.Settles manager timing (fun later result =>
        InTurn manager timing rest (fun final results => goal final (result :: results)) later)
        now (.start manager operation)

theorem InTurn.weaken {manager : Manager} {timing : Timing} {operations : List Operation}
    {goal weaker : Situation → List Result → Prop} {now : Situation}
    (inTurn : InTurn manager timing operations goal now)
    (implies : ∀ later results, goal later results → weaker later results) :
    InTurn manager timing operations weaker now := by
  induction operations generalizing goal weaker now with
  | nil => exact implies now [] inTurn
  | cons operation rest ih =>
      apply Strand.Settles.weaken inTurn
      intro later result goesOn
      exact ih goesOn fun final results met => implies final (result :: results) met

end ZonePropagation.Interleaving
