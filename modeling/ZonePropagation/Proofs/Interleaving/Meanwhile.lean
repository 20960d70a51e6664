import ZonePropagation.Proofs.Interleaving.Stages
import ZonePropagation.Proofs.Interleaving.Traces
/-!
A strand while others are at work.

Before each step of the strand others may change its surroundings.  Work that the strand hands out
is done in any order.  A strand arrives somewhere when it gets there in every order, for every reply
and whatever others do, and nothing keeps it from getting there.
-/

namespace ZonePropagation.Interleaving

open Propagation

/-- What others may make of a situation.  What counts as performed is what a strand performs, so
that they leave the past alone. -/
structure Others where
  may : Situation → Situation → Prop
  refl : ∀ now, may now now
  trans : ∀ {now later last}, may now later → may later last → may now last
  past : ∀ {now later}, may now later → later.past = now.past

def Others.none : Others where
  may := fun now later => now = later
  refl := fun _ => rfl
  trans := fun first second => first.trans second
  past := fun same => same ▸ rfl

/-- The strand comes, by steps that start nothing, to where a goal is met, whatever step comes next
each time, and there is a next step until then. -/
inductive Strand.Arrives (manager : Manager) (timing : Timing) (others : Others)
    (goal : Situation → Strand → Prop) : Situation → Strand → Prop
  | here {now : Situation} {strand : Strand} (met : goal now strand) :
      Arrives manager timing others goal now strand
  | steps {now : Situation} {strand : Strand}
      (can : ∀ between, others.may now between → ∃ later moved operations,
        Strand.Step manager anytime between strand later moved operations)
      (starts : ∀ between later moved operations, others.may now between →
        Strand.Step manager timing between strand later moved operations → operations = [])
      (all : ∀ between later moved operations, others.may now between →
        Strand.Step manager timing between strand later moved operations →
          Arrives manager timing others goal later moved) :
      Arrives manager timing others goal now strand

/-- Events, the latest first, lead from one situation to another while others are at work. -/
inductive Passes (timing : Timing) (others : Others) (start : Situation) :
    List Event → Situation → Prop
  | nil : Passes timing others start [] start
  | meanwhile {events : List Event} {now later : Situation}
      (earlier : Passes timing others start events now) (changed : others.may now later) :
      Passes timing others start events later
  | cons {events : List Event} {now : Situation} {effect : Effect} {reply : Reply effect}
      {after : Surroundings} (earlier : Passes timing others start events now)
      (answer : Answers timing now.surroundings effect reply after) :
      Passes timing others start (⟨effect, reply⟩ :: events) (now.following effect reply after)

theorem Passes.past {timing : Timing} {others : Others} {start now : Situation}
    {events : List Event} (passes : Passes timing others start events now) :
    now.past = events ++ start.past := by
  induction passes with
  | nil => rfl
  | meanwhile _earlier changed ih => exact (others.past changed).trans ih
  | cons _earlier _answer ih => exact congrArg _ ih

theorem Passes.leads {timing : Timing} {start now : Situation} {events : List Event}
    (passes : Passes timing .none start events now) :
    Leads timing start.surroundings events now.surroundings := by
  induction passes with
  | nil => exact .nil
  | meanwhile _earlier changed ih =>
      cases changed
      exact ih
  | cons _earlier answer ih => exact .cons ih answer

structure Share where
  operation : Operation
  events : List Event
  result : Result

/-- Work that was handed out has been done.  Its pieces may have taken turns, but each of them has
kept its own order. -/
structure Interleaved (manager : Manager) (work : List Operation) (results : List Result)
    (events : List Event) : Prop where
  shares : ∃ shares : List Share,
    shares.map Share.operation = work ∧ shares.map Share.result = results ∧
      (∀ share ∈ shares, Traces (manager.program share.operation) share.events share.result) ∧
      events.Perm (shares.flatMap Share.events) ∧ ∀ share ∈ shares, share.events.Sublist events

structure Fulfilled (manager : Manager) (timing : Timing) (others : Others) (start : Situation)
    (work : List Operation) (results : List Result) (later : Situation) : Prop where
  events : ∃ events, Interleaved manager work results events ∧
    Passes timing others start events later

section Work

variable {manager : Manager} {timing : Timing} {others : Others}

theorem forall_mem_replaced {α : Type} {holds : α → Prop} {item other : α} {before behind : List α}
    (each : ∀ one ∈ before ++ item :: behind, holds one) (here : holds other) :
    ∀ one ∈ before ++ other :: behind, holds one := by
  rw [List.forall_mem_append, List.forall_mem_cons] at each ⊢
  exact ⟨each.1, here, each.2.2⟩

private structure Portion where
  operation : Operation
  events : List Event
  task : Program Result

private structure Portion.Sound (manager : Manager) (portion : Portion) : Prop where
  plain : Plain portion.task
  traces : ∀ events result, Traces portion.task events result →
    Traces (manager.program portion.operation) (events ++ portion.events) result

private structure Underway (manager : Manager) (timing : Timing) (others : Others)
    (start : Situation) (work : List Operation) (now : Situation) (portions : List Portion) :
    Prop where
  same : portions.map Portion.operation = work
  sound : ∀ portion ∈ portions, portion.Sound manager
  events : ∃ events, events.Perm (portions.flatMap Portion.events) ∧
    (∀ portion ∈ portions, portion.events.Sublist events) ∧ Passes timing others start events now

private theorem Underway.meanwhile {start now later : Situation} {work : List Operation}
    {portions : List Portion} (underway : Underway manager timing others start work now portions)
    (changed : others.may now later) :
    Underway manager timing others start work later portions := by
  obtain ⟨same, sound, events, permuted, within, passes⟩ := underway
  exact ⟨same, sound, events, permuted, within, .meanwhile passes changed⟩

private theorem Underway.next {start now : Situation} {work : List Operation}
    {before behind : List Portion} {operation : Operation} {events : List Event}
    {effect : Effect} {next : Reply effect → Program Result} {reply : Reply effect}
    {after : Surroundings}
    (underway : Underway manager timing others start work now
      (before ++ ⟨operation, events, .perform effect next⟩ :: behind))
    (answer : Answers timing now.surroundings effect reply after) :
    Underway manager timing others start work (now.following effect reply after)
      (before ++ ⟨operation, ⟨effect, reply⟩ :: events, next reply⟩ :: behind) := by
  obtain ⟨same, sound, performed, permuted, within, passes⟩ := underway
  refine ⟨?_, ?_, ⟨effect, reply⟩ :: performed, ?_, ?_, .cons passes answer⟩
  · rw [← same]
    simp
  · have mine := sound ⟨operation, events, .perform effect next⟩ (by simp)
    refine forall_mem_replaced sound ⟨mine.plain.2 reply, ?_⟩
    intro rest result trace
    have extended := mine.traces _ result (.perform trace)
    rwa [List.append_assoc] at extended
  · rw [List.flatMap_append, List.flatMap_cons] at permuted ⊢
    exact (List.Perm.cons _ permuted).trans List.perm_middle.symm
  · have mine : events.Sublist performed :=
      within ⟨operation, events, .perform effect next⟩ (by simp)
    have longer : ∀ portion ∈ before ++ ⟨operation, events, .perform effect next⟩ :: behind,
        portion.events.Sublist (⟨effect, reply⟩ :: performed) :=
      fun portion member => (within portion member).cons _
    exact forall_mem_replaced longer (mine.cons_cons _)

inductive OneLess {α : Type} (less : α → α → Prop) : List α → List α → Prop
  | here {smaller item : α} {rest : List α} (down : less smaller item) :
      OneLess less (smaller :: rest) (item :: rest)
  | there {item : α} {smaller rest : List α} (inner : OneLess less smaller rest) :
      OneLess less (item :: smaller) (item :: rest)

namespace OneLess

variable {α : Type} {less : α → α → Prop} {smaller item : α} {items rest : List α}

theorem append (down : less smaller item) (before behind : List α) :
    OneLess less (before ++ smaller :: behind) (before ++ item :: behind) := by
  induction before with
  | nil => exact .here down
  | cons first rest ih => exact .there ih

theorem acc_cons (here : Acc less item) (others : Acc (OneLess less) rest) :
    Acc (OneLess less) (item :: rest) := by
  induction here generalizing rest with
  | intro item _below ihItem =>
      induction others with
      | intro rest below ih =>
          constructor
          intro next step
          cases step with
          | here down => exact ihItem _ down (.intro rest below)
          | there inner => exact ih _ inner

theorem acc (each : ∀ item ∈ items, Acc less item) : Acc (OneLess less) items := by
  induction items with
  | nil =>
      constructor
      intro next step
      cases step
  | cons item rest ih =>
      exact acc_cons (each item (by simp)) (ih fun other member => each other (by simp [member]))

end OneLess

private inductive Continues : Program Result → Program Result → Prop
  | next {effect : Effect} {next : Reply effect → Program Result} (reply : Reply effect) :
      Continues (next reply) (.perform effect next)

private theorem Continues.acc (task : Program Result) : Acc Continues task := by
  induction task with
  | done result =>
      constructor
      intro smaller step
      cases step
  | perform effect next ih =>
      constructor
      intro smaller step
      cases step with
      | next reply => exact ih reply

private theorem shares_of_done {portions : List Portion} {results : List Result}
    (sound : ∀ portion ∈ portions, portion.Sound manager)
    (done : portions.map (fun portion => Strand.running portion.task) =
      results.map fun result => .running (.done result)) :
    ∃ shares : List Share, shares.map Share.operation = portions.map Portion.operation ∧
      shares.map Share.result = results ∧
      (∀ share ∈ shares, Traces (manager.program share.operation) share.events share.result) ∧
      shares.map Share.events = portions.map Portion.events := by
  induction portions generalizing results with
  | nil =>
      cases results with
      | nil => exact ⟨[], rfl, rfl, by simp, rfl⟩
      | cons result results => cases done
  | cons portion portions ih =>
      cases results with
      | nil => cases done
      | cons result results =>
          obtain ⟨first, others⟩ := List.cons_eq_cons.mp done
          have ended : portion.task = .done result := Strand.running.inj first
          obtain ⟨shares, sameWork, sameResults, traces, sameEvents⟩ :=
            ih (fun other member => sound other (by simp [member])) others
          have trace := (sound portion (by simp)).traces [] result (by rw [ended]; exact .done)
          refine ⟨⟨portion.operation, portion.events, result⟩ :: shares, by simp [sameWork],
            by simp [sameResults], ?_, by simp [sameEvents]⟩
          intro share member
          rcases List.mem_cons.mp member with rfl | inRest
          · exact trace
          · exact traces share inRest

private theorem Underway.fulfilled {start now : Situation} {work : List Operation}
    {portions : List Portion} {results : List Result}
    (underway : Underway manager timing others start work now portions)
    (done : portions.map (fun portion => Strand.running portion.task) =
      results.map fun result => .running (.done result)) :
    Fulfilled manager timing others start work results now := by
  obtain ⟨shares, sameWork, sameResults, traces, sameEvents⟩ :=
    shares_of_done underway.sound done
  obtain ⟨events, permuted, within, passes⟩ := underway.events
  refine ⟨events, ⟨shares, sameWork.trans underway.same, sameResults, traces, ?_, ?_⟩, passes⟩
  · rw [List.flatMap_def, sameEvents, ← List.flatMap_def]
    exact permuted
  · intro share member
    have listed : share.events ∈ shares.map Share.events := List.mem_map_of_mem member
    rw [sameEvents] at listed
    obtain ⟨portion, inside, same⟩ := List.mem_map.mp listed
    rw [← same]
    exact within portion inside

private theorem Portion.exists_next (portions : List Portion) :
    (∃ results : List Result, portions.map (fun portion => Strand.running portion.task) =
        results.map fun result => .running (.done result)) ∨
      ∃ before behind operation events effect next,
        portions = before ++ (⟨operation, events, .perform effect next⟩ : Portion) :: behind := by
  induction portions with
  | nil => exact .inl ⟨[], rfl⟩
  | cons portion portions ih =>
      obtain ⟨operation, events, task⟩ := portion
      cases task with
      | perform effect next => exact .inr ⟨[], portions, operation, events, effect, next, rfl⟩
      | done result =>
          rcases ih with ⟨results, done⟩ | ⟨before, behind, other, earlier, effect, next, rfl⟩
          · exact .inl ⟨result :: results, by simp [done]⟩
          · exact .inr ⟨_ :: before, behind, other, earlier, effect, next, rfl⟩

private theorem Plain.step {task : Program Result} {now later : Situation} {moved : Strand}
    {operations : List Operation} (plain : Plain task)
    (step : Strand.Step manager timing now (.running task) later moved operations) :
    operations = [] ∧ ∃ (effect : Effect) (next : Reply effect → Program Result)
      (reply : Reply effect) (after : Surroundings), task = .perform effect next ∧
        Answers timing now.surroundings effect reply after ∧
          later = now.following effect reply after ∧ moved = .running (next reply) := by
  cases step with
  | @perform effect next reply after single answer =>
      refine ⟨?_, effect, next, reply, after, rfl, answer, rfl, rfl⟩
      cases effect with
      | detach _ => cases plain.1
      | _ => rfl
  | fork => cases plain.1

private theorem Underway.step {start now later : Situation} {width : Nat} {work : List Operation}
    {portions : List Portion} {next : List Result → Program Result} {moved : Strand}
    {operations : List Operation}
    (underway : Underway manager timing others start work now portions)
    (step : Strand.Step manager timing now
      (.waiting width work (portions.map fun portion => .running portion.task) next) later moved
      operations) :
    operations = [] ∧
      ((∃ results, Fulfilled manager timing others start work results now ∧
          later = now.following (.fork width work) results now.surroundings ∧
            moved = .running (next results)) ∨
        ∃ rest : List Portion, Underway manager timing others start work later rest ∧
          OneLess Continues (rest.map Portion.task) (portions.map Portion.task) ∧
            moved = .waiting width work (rest.map fun portion => .running portion.task) next) := by
  generalize same : (portions.map fun portion => Strand.running portion.task) = strands at step
  cases step with
  | @join _ _ results _ =>
      exact ⟨rfl, .inl ⟨results, underway.fulfilled same, rfl, rfl⟩⟩
  | @inner _ _ _ before behind strand moved _ _ inner =>
      obtain ⟨first, last, rfl, rfl, sameRest⟩ := List.map_eq_append_iff.mp same
      obtain ⟨portion, rest, rfl, rfl, rfl⟩ := List.map_eq_cons_iff.mp sameRest
      obtain ⟨operation, events, task⟩ := portion
      have plain := (underway.sound ⟨operation, events, task⟩ (by simp)).plain
      obtain ⟨nothing, effect, goesOn, reply, after, rfl, answer, rfl, rfl⟩ := plain.step inner
      refine ⟨nothing, .inr ⟨_, underway.next answer, ?_, by simp⟩⟩
      simp only [List.map_append, List.map_cons]
      exact OneLess.append (.next reply) _ _

private theorem Underway.arrives {goal : Situation → Strand → Prop} {start now : Situation}
    {width : Nat} {work : List Operation} {portions : List Portion}
    {next : List Result → Program Result}
    (underway : Underway manager timing others start work now portions)
    (goesOn : ∀ results later, Fulfilled manager timing others start work results later →
      Strand.Arrives manager timing others goal
        (later.following (.fork width work) results later.surroundings)
        (.running (next results))) :
    Strand.Arrives manager timing others goal now
      (.waiting width work (portions.map fun portion => .running portion.task) next) := by
  -- Which portion goes on is open, so the induction is on the tasks of all of them: a step makes
  -- one of them smaller and leaves the others.
  obtain ⟨tasks, same⟩ : ∃ tasks, portions.map Portion.task = tasks := ⟨_, rfl⟩
  have acc : Acc (OneLess Continues) tasks := OneLess.acc fun task _member => Continues.acc task
  induction acc generalizing now portions with
  | intro tasks _below ih =>
      subst same
      refine .steps ?_ ?_ ?_
      · intro between _changed
        rcases Portion.exists_next portions with ⟨results, done⟩ |
          ⟨before, behind, operation, events, effect, next, rfl⟩
        · rw [done]
          exact ⟨_, _, _, .join⟩
        · have plain := (underway.sound ⟨operation, events, .perform effect next⟩ (by simp)).plain.1
          obtain ⟨reply, after, answer⟩ := Answers.exists_reply between.surroundings effect
            (fun lock waits => by rw [waits] at plain; cases plain)
          rw [List.map_append, List.map_cons]
          refine ⟨_, _, _, .inner (.perform ?_ answer)⟩
          cases effect with
          | fork _ _ => cases plain
          | _ => rfl
      · intro between later moved operations changed step
        exact ((underway.meanwhile changed).step step).1
      · intro between later moved operations changed step
        rcases ((underway.meanwhile changed).step step).2 with ⟨results, fulfilled, rfl, rfl⟩ |
          ⟨rest, further, smaller, rfl⟩
        · exact goesOn results between fulfilled
        · exact ih _ smaller further rfl

/-- Others are at work meanwhile, and work that is handed out is fulfilled at once. -/
def amid (manager : Manager) (timing : Timing) (others : Others) : Conduct Situation where
  answers := fun now effect reply after =>
    (isFork effect = false ∧ ∃ left, Answers timing now.surroundings effect reply left ∧
      after = now.following effect reply left) ∨
    ∃ width work results later, (⟨effect, reply⟩ : Event) = ⟨.fork width work, results⟩ ∧
      Fulfilled manager timing others now work results later ∧
        after = later.following (.fork width work) results later.surroundings
  rely := others.may
  rule := fun now effect =>
    (∀ lock, effect = .acquire lock → now.surroundings.locks.isFree lock = true) ∧
      (∀ work, effect ≠ .detach work) ∧
        ∀ width work, effect = .fork width work →
          ∀ operation ∈ work, Plain (manager.program operation)
  rely_refl := others.refl
  rely_trans := others.trans

theorem Strand.Arrives.fork {goal : Situation → Strand → Prop} {now : Situation} {width : Nat}
    {work : List Operation} {next : List Result → Program Result}
    (arrives : ∀ between, others.may now between → Strand.Arrives manager timing others goal between
      (.waiting width work (work.map (Strand.start manager)) next)) :
    Strand.Arrives manager timing others goal now
      (.running (.perform (.fork width work) next)) := by
  refine .steps (fun _ _ => ⟨_, _, _, .fork⟩) ?_ ?_
  · intro between later moved operations _changed step
    cases step with
    | perform single _answer => cases single
    | fork => rfl
  · intro between later moved operations changed step
    cases step with
    | perform single _answer => cases single
    | fork => exact arrives _ changed

theorem Strand.Arrives.bind {α : Type} {goal : Situation → Strand → Prop} {program : Program α}
    {follow : α → Program Result} {now : Situation}
    (along : (amid manager timing others).Along (fun later value =>
      Strand.Arrives manager timing others goal later (.running (follow value))) program now) :
    Strand.Arrives manager timing others goal now (.running (program >>= follow)) := by
  change Strand.Arrives manager timing others goal now (.running (program.andThen follow))
  induction program generalizing now with
  | done value => exact along now (others.refl now)
  | perform effect next ih =>
      cases single : isFork effect with
      | false =>
          refine .steps ?_ ?_ ?_
          · intro between changed
            obtain ⟨⟨free, -, -⟩, -⟩ := along between changed
            obtain ⟨reply, after, answer⟩ := Answers.exists_reply between.surroundings effect free
            exact ⟨_, _, _, .perform single answer⟩
          · intro between later moved operations changed step
            obtain ⟨⟨-, waited, -⟩, -⟩ := along between changed
            cases step with
            | perform _single _answer =>
                cases effect with
                | detach work => exact absurd rfl (waited work)
                | _ => rfl
            | fork => rfl
          · intro between later moved operations changed step
            obtain ⟨-, goesOn⟩ := along between changed
            cases step with
            | perform _single answer => exact ih _ (goesOn _ _ (.inl ⟨single, _, answer, rfl⟩))
            | fork => cases single
      | true =>
          cases effect with
          | fork width work =>
              apply Strand.Arrives.fork
              intro between changed
              obtain ⟨⟨-, -, plain⟩, goesOn⟩ := along between changed
              have underway : Underway manager timing others between work between
                  (work.map fun operation => ⟨operation, [], manager.program operation⟩) := by
                refine ⟨by simp [Function.comp_def], ?_, [], by simp, by simp, .nil⟩
                intro portion member
                obtain ⟨operation, handed, rfl⟩ := List.mem_map.mp member
                refine ⟨plain width work rfl operation handed, ?_⟩
                intro events result trace
                rwa [List.append_nil]
              have arrived : Strand.Arrives manager timing others goal between
                  (.waiting width work
                    ((work.map fun operation =>
                      (⟨operation, [], manager.program operation⟩ : Portion)).map
                        fun portion => .running portion.task)
                    fun results => (next results).andThen follow) :=
                underway.arrives fun results later fulfilled =>
                  ih results (goesOn results _ (.inr ⟨_, _, _, _, rfl, fulfilled, rfl⟩))
              rwa [List.map_map] at arrived
          | _ => cases single

section Programs

variable {now : Situation}

theorem amid_performs {effect : Effect} {goal : Situation → Reply effect → Prop}
    (plain : isPlain effect = true)
    (met : ∀ later reply, later.past = ⟨effect, reply⟩ :: now.past → goal later reply) :
    (amid manager timing others).Along goal (perform effect) now := by
  refine Conduct.Along.perform ?_ ?_
  · intro later _changed
    refine ⟨?_, ?_, ?_⟩
    · rintro lock rfl
      cases plain
    · rintro work rfl
      cases plain
    · rintro width work rfl
      cases plain
  · intro later reply after changed answered last further
    apply met
    rw [others.past further]
    rcases answered with ⟨-, left, -, rfl⟩ | ⟨width, work, results, left, same, -, -⟩
    · exact congrArg _ (others.past changed)
    · cases same
      cases plain

theorem amid_forks {width : Nat} {work : List Operation}
    (shows : Operation → List Event → Result → Prop) {goal : Situation → List Result → Prop}
    (yields : ∀ operation ∈ work, Yields (shows operation) (manager.program operation))
    (met : ∀ (shares : List Share) events later, shares.map Share.operation = work →
      (∀ share ∈ shares, shows share.operation share.events share.result) →
      events.Perm (shares.flatMap Share.events) →
      later.past = ⟨.fork width work, shares.map Share.result⟩ :: (events ++ now.past) →
      goal later (shares.map Share.result)) :
    (amid manager timing others).Along goal (perform (.fork width work)) now := by
  refine Conduct.Along.perform ?_ ?_
  · intro later _changed
    refine ⟨fun lock waits => (by cases waits), fun other waits => (by cases waits), ?_⟩
    intro others handed same operation member
    cases same
    exact (yields operation member).plain
  · intro later reply after changed answered last further
    rcases answered with ⟨single, -⟩ | ⟨_, _, results, left, same, fulfilled, rfl⟩
    · cases single
    · cases same
      obtain ⟨events, ⟨shares, sameWork, rfl, traces, permuted, -⟩, passes⟩ := fulfilled
      refine met shares events last sameWork ?_ permuted ?_
      · intro share member
        apply (yields share.operation ?_).shown _ _ (traces share member)
        rw [← sameWork]
        exact List.mem_map_of_mem member
      · rw [others.past further]
        change _ :: left.past = _
        rw [passes.past, others.past changed]

end Programs

theorem Strand.Arrives.tries {α β : Type} {goal : Situation → Strand → Prop}
    {program : Fallible α} {follow : α → Fallible β} {finish : Except Fault β → Program Result}
    {now : Situation}
    (tries : (amid manager timing others).Tries
      (fun later value => Strand.Arrives manager timing others goal later
        (.running ((follow value).run >>= finish)))
      (fun later fault => Strand.Arrives manager timing others goal later
        (.running (finish (.error fault)))) program now) :
    Strand.Arrives manager timing others goal now
      (.running ((program >>= follow).run >>= finish)) := by
  rw [ExceptT.run_bind, bind_assoc]
  apply Strand.Arrives.bind
  apply Conduct.Along.weaken tries
  intro later outcome arrives
  cases outcome with
  | ok value => exact arrives
  | error fault =>
      rw [pure_bind]
      exact arrives

end Work

/-! ### Runs of one strand -/

/-- A strand of a call takes a step, or others do something. -/
inductive World.Amid (manager : Manager) (others : Others) : World → World → Prop
  | act {world next : World} (act : World.Act manager anytime world next) :
      Amid manager others world next
  | meanwhile {now later : Situation} {strands : List Strand} (changed : others.may now later) :
      Amid manager others ⟨now, strands⟩ ⟨later, strands⟩

section Runs

variable {manager : Manager} {others : Others} {goal : Situation → Strand → Prop}
  {now later : Situation} {strand : Strand}

theorem Strand.Arrives.of_done {timing : Timing} {result : Result}
    (arrives : Strand.Arrives manager timing others goal now (.running (.done result))) :
    goal now (.running (.done result)) := by
  cases arrives with
  | here met => exact met
  | steps can _starts _all =>
      obtain ⟨_, _, _, step⟩ := can now (others.refl now)
      cases step

theorem Strand.Arrives.completes
    (arrives : Strand.Arrives manager anytime others goal now strand) :
    ∃ later moved, now.past <:+ later.past ∧ goal later moved := by
  induction arrives with
  | here met => exact ⟨_, _, List.suffix_refl _, met⟩
  | @steps now strand can _starts _all ih =>
      obtain ⟨later, moved, operations, step⟩ := can now (others.refl now)
      obtain ⟨last, final, longer, met⟩ := ih now later moved operations (others.refl now) step
      exact ⟨last, final, step.past_suffix.trans longer, met⟩

private theorem Strand.Arrives.meanwhile
    (stable : ∀ now later strand, others.may now later → goal now strand → goal later strand)
    (arrives : Strand.Arrives manager anytime others goal now strand)
    (changed : others.may now later) :
    Strand.Arrives manager anytime others goal later strand := by
  cases arrives with
  | here met => exact .here (stable now later strand changed met)
  | steps can starts all =>
      exact .steps (fun between more => can between (others.trans changed more))
        (fun between last moved operations more =>
          starts between last moved operations (others.trans changed more))
        fun between last moved operations more =>
          all between last moved operations (others.trans changed more)

theorem Strand.Arrives.reached {world : World}
    (stable : ∀ now later strand, others.may now later → goal now strand → goal later strand)
    (arrives : Strand.Arrives manager anytime others goal now strand)
    (run : Relation.ReflTransGen (World.Amid manager others) ⟨now, [strand]⟩ world) :
    (∃ later moved, world = ⟨later, [moved]⟩ ∧
        Strand.Arrives manager anytime others goal later moved) ∨
      ∃ later moved, goal later moved ∧
        Relation.ReflTransGen (World.Amid manager others) ⟨later, [moved]⟩ world := by
  induction run with
  | refl => exact .inl ⟨now, strand, rfl, arrives⟩
  | @tail world next _earlier amid ih =>
      rcases ih with ⟨later, moved, rfl, arrives⟩ | ⟨later, moved, met, since⟩
      · cases amid with
        | meanwhile changed => exact .inl ⟨_, moved, rfl, arrives.meanwhile stable changed⟩
        | act act =>
            have whole := act
            generalize same : (⟨later, [moved]⟩ : World) = world at act
            cases act with
            | @act _ last before behind strand next operations step =>
                obtain ⟨rfl, only⟩ := World.mk.inj same
                rcases List.append_eq_singleton_iff.mp only.symm with ⟨rfl, single⟩ | ⟨-, none⟩
                · obtain ⟨rfl, rfl⟩ := List.cons_eq_cons.mp single
                  cases arrives with
                  | here met => exact .inr ⟨later, _, met, .single (.act whole)⟩
                  | steps _can starts all =>
                      obtain rfl := starts later _ _ _ (others.refl later) step
                      exact .inl ⟨_, _, rfl, all later _ _ _ (others.refl later) step⟩
                · cases none
      · exact .inr ⟨later, moved, met, since.tail amid⟩

private def Law.since (base : List Event) (kind : Effect → Prop) : Law where
  allows := fun past effect => base <:+ past → kind effect
  permits := fun operation => ∃ effect, kind effect ∧ operation ∈ handedOut effect

private theorem Only.since {α : Type} {kind : Effect → Prop} {program : Program α}
    (only : Only kind program) (base past : List Event) :
    (Law.since base kind).Binds past program := by
  induction program generalizing past with
  | done value => exact fun _ _ => trivial
  | perform effect next ih =>
      intro later _more
      refine ⟨⟨fun _ => only.1, fun operation handed => ⟨effect, only.1, handed⟩⟩, ?_⟩
      exact fun reply after _answer => ih reply (only.2 reply) after

/-- Where a strand, and all work that it hands out, performs only effects of a kind, so does a run
of it. -/
theorem World.Amid.only {kind : Effect → Prop} {task : Program Result} {world : World}
    (handed : ∀ effect, kind effect → ∀ operation ∈ handedOut effect,
      Only kind (manager.program operation))
    (only : Only kind task)
    (run : Relation.ReflTransGen (World.Amid manager others) ⟨now, [.running task]⟩ world) :
    ∃ more, world.now.past = more ++ now.past ∧ ∀ event ∈ more, kind event.effect := by
  have kept : (Law.since now.past kind).Kept manager := by
    rintro operation ⟨effect, ofKind, inside⟩ past
    exact (handed effect ofKind operation inside).since _ past
  have holds : (Law.since now.past kind).Holds world ∧ now.past <:+ world.now.past := by
    induction run with
    | refl =>
        refine ⟨⟨?_, ?_⟩, List.suffix_refl _⟩
        · intro strand member
          rw [List.mem_singleton.mp member]
          exact .running (only.since _ _)
        · intro event earlier inside more
          change event :: earlier <:+ now.past at inside
          have longer := inside.length_le.trans more.length_le
          exact absurd longer (Nat.not_succ_le_self _)
    | tail _earlier amid ih =>
        cases amid with
        | act act =>
            refine ⟨ih.1.act kept act, ih.2.trans ?_⟩
            cases act with
            | act step => exact step.past_suffix
        | meanwhile changed =>
            obtain ⟨⟨governs, obeyed⟩, longer⟩ := ih
            have same := others.past changed
            rw [← same] at governs obeyed longer
            exact ⟨⟨governs, obeyed⟩, longer⟩
  obtain ⟨⟨-, obeyed⟩, more, past⟩ := holds
  refine ⟨more, past.symm, ?_⟩
  intro event member
  obtain ⟨later, earlier, rfl⟩ := List.append_of_mem member
  apply obeyed event (earlier ++ now.past)
  · rw [← past]
    exact ⟨later, by simp⟩
  · exact List.suffix_append _ _

end Runs

end ZonePropagation.Interleaving
