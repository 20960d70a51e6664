import ZonePropagation.Proofs.Interleaving.Alone
import ZonePropagation.Proofs.Interleaving.Locks
/-!
Strands that settle among each other.

A strand is tidy when it starts nothing aside and the work that it hands out waits for nothing.  Tidy
strands come to an end in every order: each takes only so many steps, and until all are done one of
them has a next step.  No lock holds them up for good, since whoever holds a lock does not wait.
-/

namespace ZonePropagation.Interleaving

open Propagation

variable {manager : Manager} {timing : Timing}

theorem plain_iff_only {α : Type} {program : Program α} :
    Plain program ↔ Only (fun effect => isPlain effect = true) program := by
  induction program with
  | done value => exact Iff.rfl
  | perform effect next ih => exact and_congr_right fun _ => forall_congr' ih

theorem Only.plain {α : Type} {kind : Effect → Prop} {program : Program α}
    (only : Only (fun effect => isPlain effect = true ∧ kind effect) program) : Plain program :=
  plain_iff_only.mpr (only.weaken fun _ both => both.1)

theorem started_of_isPlain {effect : Effect} (plain : isPlain effect = true) :
    started effect = [] := by
  cases effect with
  | detach _ => cases plain
  | _ => rfl

theorem Answers.exists_of_isPlain (before : Surroundings) {effect : Effect}
    (plain : isPlain effect = true) : ∃ reply after, Answers anytime before effect reply after := by
  apply Answers.exists_reply
  rintro lock rfl
  cases plain

/-! ### Steps come to an end -/

def Strand.Moves (manager : Manager) (moved strand : Strand) : Prop :=
  ∃ timing now later operations, Strand.Step manager timing now strand later moved operations

abbrev Strand.Bounded (manager : Manager) (strand : Strand) : Prop :=
  Acc (Strand.Moves manager) strand

theorem Strand.Bounded.waiting {width : Nat} {work : List Operation} {strands : List Strand}
    {next : List Result → Program Result} (inner : ∀ strand ∈ strands, strand.Bounded manager)
    (goesOn : ∀ results, Strand.Bounded manager (.running (next results))) :
    Strand.Bounded manager (.waiting width work strands next) := by
  have acc := OneLess.acc inner
  clear inner
  induction acc with
  | intro strands _below ih =>
      constructor
      rintro moved ⟨timing, now, later, operations, step⟩
      cases step with
      | inner step => exact ih _ (OneLess.append ⟨_, _, _, _, step⟩ _ _)
      | join => exact goesOn _

theorem Strand.Bounded.running {task : Program Result}
    (forks : Only (fun effect => ∀ operation ∈ handedOut effect,
      (Strand.start manager operation).Bounded manager) task) :
    Strand.Bounded manager (.running task) := by
  induction task with
  | done result =>
      constructor
      rintro moved ⟨timing, now, later, operations, step⟩
      cases step
  | perform effect next ih =>
      constructor
      rintro moved ⟨timing, now, later, operations, step⟩
      cases step with
      | perform single answer => exact ih _ (forks.2 _)
      | fork =>
          apply Bounded.waiting
          · intro strand member
            obtain ⟨operation, handed, rfl⟩ := List.mem_map.mp member
            exact forks.1 operation handed
          · exact fun results => ih results (forks.2 results)

/-- A strand settles when it keeps, step by step, to what lets it take the next one, until it comes
to where it is known to settle. -/
theorem Strand.Settles.of_kept {goal : Situation → Result → Prop}
    {kept : Situation → Strand → Prop} {now : Situation} {strand : Strand}
    (bounded : strand.Bounded manager)
    (goesOn : ∀ now strand, kept now strand → Strand.Settles manager timing goal now strand ∨
      (∃ later moved operations, Strand.Step manager anytime now strand later moved operations) ∧
        ∀ later moved operations, Strand.Step manager timing now strand later moved operations →
          operations = [] ∧ kept later moved)
    (begun : kept now strand) : Strand.Settles manager timing goal now strand := by
  induction bounded generalizing now with
  | intro strand _below ih =>
      rcases goesOn now strand begun with settles | ⟨can, steps⟩
      · exact settles
      · -- There is a next step, and every one leaves fewer steps to come.
        apply Strand.Settles.steps can
        · exact fun later moved operations step => (steps _ _ _ step).1
        · intro later moved operations step
          exact ih moved ⟨_, _, _, _, step⟩ (steps _ _ _ step).2

/-! ### Tidy strands -/

/-- The effect is of a kind, and work that it hands out is plain and all of that kind. -/
def Shallow (manager : Manager) (kind : Effect → Prop) : Effect → Prop
  | .fork _ work => ∀ operation ∈ work,
      Only (fun effect => isPlain effect = true ∧ kind effect) (manager.program operation)
  | .detach _ => False
  | effect => kind effect

theorem Shallow.kind {kind : Effect → Prop} {effect : Effect}
    (shallow : Shallow manager kind effect) (single : isFork effect = false) :
    kind effect ∧ started effect = [] := by
  cases effect with
  | fork _ _ => cases single
  | detach _ => cases shallow
  | _ => exact ⟨shallow, rfl⟩

theorem map_start (work : List Operation) :
    work.map (Strand.start manager) = (work.map manager.program).map .running := by
  rw [List.map_map]
  rfl

inductive Strand.Tidy (manager : Manager) (kind : Effect → Prop) : Strand → Prop
  | running {task : Program Result} (only : Only (Shallow manager kind) task) :
      Tidy manager kind (.running task)
  | waiting {width : Nat} {work : List Operation} {tasks : List (Program Result)}
      {next : List Result → Program Result}
      (inner : ∀ task ∈ tasks, Only (fun effect => isPlain effect = true ∧ kind effect) task)
      (goesOn : ∀ results, Only (Shallow manager kind) (next results)) :
      Tidy manager kind (.waiting width work (tasks.map .running) next)

namespace Strand

variable {kind : Effect → Prop} {now later : Situation} {strand moved : Strand}
  {operations : List Operation}

theorem Bounded.of_plain {task : Program Result} (plain : Plain task) :
    Strand.Bounded manager (.running task) := by
  apply Bounded.running
  apply (plain_iff_only.mp plain).weaken
  intro effect plain operation handed
  cases effect with
  | fork _ _ | detach _ => cases plain
  | _ => cases handed

theorem Bounded.of_shallow {task : Program Result} (only : Only (Shallow manager kind) task) :
    Strand.Bounded manager (.running task) := by
  apply Bounded.running
  apply only.weaken
  intro effect shallow operation handed
  cases effect with
  | fork _ _ => exact .of_plain (shallow operation handed).plain
  | detach _ => cases shallow
  | _ => cases handed

theorem Tidy.bounded (tidy : strand.Tidy manager kind) : strand.Bounded manager := by
  cases tidy with
  | running only => exact .of_shallow only
  | waiting inner goesOn =>
      apply Bounded.waiting
      · intro other member
        obtain ⟨task, inside, rfl⟩ := List.mem_map.mp member
        exact .of_plain (inner task inside).plain
      · exact fun results => .of_shallow (goesOn results)

/-- A step of a tidy strand starts nothing, leaves a tidy strand and performs an effect of the kind,
if it does more than to hand work out or to take its results. -/
theorem Tidy.step (tidy : strand.Tidy manager kind)
    (step : Strand.Step manager timing now strand later moved operations) :
    operations = [] ∧ moved.Tidy manager kind ∧
      (later.surroundings = now.surroundings ∨ ∃ effect reply after, kind effect ∧
        Answers timing now.surroundings effect reply after ∧ later.surroundings = after) := by
  cases tidy with
  | running only =>
      cases step with
      | @perform effect next reply after single answer =>
          obtain ⟨ofKind, nothing⟩ := only.1.kind single
          exact ⟨nothing, .running (only.2 reply), .inr ⟨effect, reply, after, ofKind, answer, rfl⟩⟩
      | @fork width work next =>
          refine ⟨rfl, ?_, .inl rfl⟩
          rw [map_start]
          apply Tidy.waiting
          · intro task member
            obtain ⟨operation, inside, rfl⟩ := List.mem_map.mp member
            exact only.1 operation inside
          · exact only.2
  | @waiting width work tasks next inner goesOn =>
      generalize same : tasks.map Strand.running = strands at step
      cases step with
      | @inner _ _ _ before behind strand moved _ _ step =>
          obtain ⟨first, others, rfl, rfl, rest⟩ := List.map_eq_append_iff.mp same
          obtain ⟨task, last, rfl, rfl, rfl⟩ := List.map_eq_cons_iff.mp rest
          have here := inner task (by simp)
          cases step with
          | @perform effect follow reply after single answer =>
              refine ⟨started_of_isPlain here.1.1, ?_, .inr ⟨_, _, _, here.1.2, answer, rfl⟩⟩
              have left : first.map Strand.running ++ .running (follow reply) ::
                  last.map Strand.running = (first ++ follow reply :: last).map .running := by simp
              rw [left]
              exact .waiting (forall_mem_replaced inner (here.2 reply)) goesOn
          | fork => cases here.1.1
      | @join _ _ results _ => exact ⟨rfl, .running (goesOn results), .inl rfl⟩

theorem Tidy.next (tidy : strand.Tidy manager kind) (now : Situation) :
    (∃ result, strand = .running (.done result)) ∨
      (∃ later moved operations, Strand.Step manager anytime now strand later moved operations) ∨
        ∃ lock next, strand = .running (.perform (.acquire lock) next) ∧
          now.surroundings.locks.isFree lock = false := by
  cases tidy with
  | @running task only =>
      cases task with
      | done result => exact .inl ⟨result, rfl⟩
      | perform effect next =>
          cases forking : isFork effect with
          | true =>
              cases effect with
              | fork _ _ => exact .inr (.inl ⟨_, _, _, .fork⟩)
              | _ => cases forking
          | false =>
              by_cases free : ∀ lock, effect = .acquire lock →
                  now.surroundings.locks.isFree lock = true
              · obtain ⟨reply, after, answer⟩ := Answers.exists_reply _ effect free
                exact .inr (.inl ⟨_, _, _, .perform forking answer⟩)
              · push Not at free
                obtain ⟨lock, rfl, taken⟩ := free
                exact .inr (.inr ⟨lock, next, rfl, by simpa using taken⟩)
  | @waiting width work tasks next inner goesOn =>
      by_cases done : ∀ task ∈ tasks, ∃ result, Task.done result = task
      · have listed : tasks ∈ Set.range (List.map Task.done) := by
          rw [Set.range_list_map]
          exact done
        obtain ⟨results, rfl⟩ := listed
        rw [List.map_map]
        exact .inr (.inl ⟨_, _, _, .join⟩)
      · push Not at done
        obtain ⟨task, member, undone⟩ := done
        obtain ⟨before, behind, rfl⟩ := List.append_of_mem member
        have here := inner task (by simp)
        cases task with
        | done result => exact absurd rfl (undone result)
        | perform effect follow =>
            obtain ⟨reply, after, answer⟩ :=
              Answers.exists_of_isPlain now.surroundings here.1.1
            rw [List.map_append, List.map_cons]
            exact .inr (.inl ⟨_, _, _, .inner (.perform (isFork_of_isPlain here.1.1) answer)⟩)

end Strand

/-! ### Locks hold nobody up -/

def Sharing (now : Situation) (strands : List Strand) : Prop :=
  ∃ holds, locking.Staged strands holds ∧ Guarded now.surroundings.locks holds

namespace Sharing

variable {now later : Situation} {strands before behind : List Strand} {strand moved : Strand}

theorem begin {work : List Operation} (kept : locking.Kept manager)
    (idle : now.surroundings.locks.Idle) : Sharing now (work.map (Strand.start manager)) := by
  refine ⟨_, .started kept fun _ _ => trivial, .of_idle idle ?_⟩
  intro hold member
  obtain ⟨operation, -, rfl⟩ := List.mem_map.mp (Multiset.mem_coe.mp member)
  rfl

theorem step (kept : locking.Kept manager) (sharing : Sharing now (before ++ strand :: behind))
    (step : Strand.Step manager timing now strand later moved []) :
    Sharing later (before ++ moved :: behind) := by
  obtain ⟨holds, staged, guarded⟩ := sharing
  have act : World.Act manager timing ⟨now, before ++ strand :: behind⟩
      ⟨later, before ++ moved :: behind ++ [].map (Strand.start manager)⟩ := .act step
  obtain ⟨after, stagedAfter, turn⟩ := staged.act kept act
  rw [List.map_nil, List.append_nil] at stagedAfter
  exact ⟨after, stagedAfter, guarded.turn turn⟩

private theorem exists_of_mem {holds : Multiset Hold} {hold : Hold}
    (staged : locking.Staged strands holds) (member : hold ∈ holds) :
    ∃ strand ∈ strands, ∃ mine, locking.At strand mine ∧ hold ∈ mine := by
  induction strands generalizing holds with
  | nil =>
      cases staged
      cases Multiset.notMem_zero _ member
  | cons strand strands ih =>
      cases staged with
      | cons here others =>
          rcases Multiset.mem_add.mp member with first | rest
          · exact ⟨strand, List.mem_cons_self, _, here, first⟩
          · obtain ⟨other, inside, found⟩ := ih others rest
            exact ⟨other, List.mem_cons_of_mem _ inside, found⟩

theorem exists_step (sharing : Sharing now strands)
    (tidy : ∀ strand ∈ strands, ∃ kind, strand.Tidy manager kind) :
    (∃ results : List Result, strands = results.map fun result => .running (.done result)) ∨
      ∃ strand ∈ strands, ∃ later moved operations,
        Strand.Step manager anytime now strand later moved operations := by
  by_contra stuck
  push Not at stuck
  obtain ⟨undone, stuck⟩ := stuck
  have waits : ∀ strand ∈ strands, (∃ result, .running (.done result) = strand) ∨
      ∃ lock next, strand = .running (.perform (.acquire lock) next) ∧
        now.surroundings.locks.isFree lock = false := by
    intro strand member
    obtain ⟨kind, tidily⟩ := tidy strand member
    rcases tidily.next now with ⟨result, rfl⟩ | ⟨_, _, _, step⟩ | waiting
    · exact .inl ⟨result, rfl⟩
    · exact absurd step (stuck strand member _ _ _)
    · exact .inr waiting
  have blocked : ∃ lock, now.surroundings.locks.isFree lock = false := by
    by_contra free
    have listed : strands ∈ Set.range (List.map fun result => Strand.running (.done result)) := by
      rw [Set.range_list_map]
      intro strand member
      rcases waits strand member with done | ⟨lock, _, _, taken⟩
      · exact done
      · exact absurd ⟨lock, taken⟩ free
    obtain ⟨results, same⟩ := listed
    exact undone results same.symm
  obtain ⟨lock, taken⟩ := blocked
  obtain ⟨holds, staged, guarded⟩ := sharing
  have held : 0 < now.surroundings.locks.held.count lock := by
    rw [List.count_pos_iff]
    simpa [LockTable.isFree] using taken
  rw [guarded.held, Multiset.countP_pos] at held
  obtain ⟨hold, member, holding⟩ := held
  obtain ⟨strand, inside, mine, here, among⟩ := exists_of_mem staged member
  rcases waits strand inside with ⟨result, rfl⟩ | ⟨other, next, rfl, -⟩
  · cases here with
    | running keeps =>
        rw [Multiset.mem_singleton.mp among] at holding
        rw [keeps _ rfl] at holding
        cases holding
  · cases here with
    | running keeps =>
        obtain ⟨⟨⟨key, waiting⟩, -⟩, -⟩ := keeps _ rfl
        rw [Multiset.mem_singleton.mp among, waiting] at holding
        cases holding

end Sharing

section Settling

variable {goal : Situation → Result → Prop} {now : Situation}

theorem Strand.Settles.of_tidy {kind : Effect → Prop} {invariant : Situation → Strand → Prop}
    {strand : Strand} (kept : locking.Kept manager) (tidy : strand.Tidy manager kind)
    (sharing : Sharing now [strand])
    (steps : ∀ now later strand moved, strand.Tidy manager kind → invariant now strand →
      Strand.Step manager timing now strand later moved [] → invariant later moved)
    (met : ∀ now result, invariant now (.running (.done result)) → goal now result)
    (begun : invariant now strand) : Strand.Settles manager timing goal now strand := by
  let holding (now : Situation) (strand : Strand) : Prop :=
    strand.Tidy manager kind ∧ Sharing now [strand] ∧ invariant now strand
  have begun : holding now strand := ⟨tidy, sharing, begun⟩
  apply Strand.Settles.of_kept tidy.bounded ?_ begun
  · rintro now strand ⟨tidy, sharing, holds⟩
    have tidily : ∀ other ∈ [strand], ∃ kind, other.Tidy manager kind := by
      intro other member
      rw [List.mem_singleton.mp member]
      exact ⟨kind, tidy⟩
    rcases sharing.exists_step tidily with ⟨results, done⟩ | ⟨other, member, can⟩
    · obtain ⟨result, rest, rfl, rfl, -⟩ := List.map_eq_cons_iff.mp done.symm
      exact .inl (.done (met now result holds))
    · rw [List.mem_singleton.mp member] at can
      refine .inr ⟨can, ?_⟩
      intro later moved operations step
      obtain ⟨rfl, still, -⟩ := tidy.step step
      have shared : Sharing later ([] ++ moved :: []) := Sharing.step kept sharing step
      exact ⟨rfl, still, shared, steps _ _ _ _ tidy holds step⟩

theorem Strand.Step.of_done {later : Situation} {width : Nat} {work : List Operation}
    {results : List Result} {next : List Result → Program Result} {moved : Strand}
    {operations : List Operation}
    (step : Strand.Step manager timing now
      (.waiting width work (results.map fun result => .running (.done result)) next) later moved
      operations) :
    operations = [] ∧ later = now.following (.fork width work) results now.surroundings ∧
      moved = .running (next results) := by
  generalize same : (results.map fun result => Strand.running (.done result)) = strands at step
  cases step with
  | @inner _ _ _ before behind strand _ _ _ step =>
      obtain ⟨first, others, rfl, rfl, rest⟩ := List.map_eq_append_iff.mp same
      obtain ⟨result, last, rfl, rfl, rfl⟩ := List.map_eq_cons_iff.mp rest
      cases step
  | @join _ _ others _ =>
      have injective : Function.Injective fun result : Result => Strand.running (.done result) := by
        intro left right equal
        cases equal
        rfl
      obtain rfl := List.map_injective_iff.mpr injective same
      exact ⟨rfl, rfl, rfl⟩

/-- Tidy strands that have the locks for themselves settle among each other, with what the steps of
all of them keep. -/
theorem Strand.Settles.of_work {invariant : Situation → List Strand → Prop} {width : Nat}
    {work : List Operation} {strands : List Strand} {next : List Result → Program Result}
    (kept : locking.Kept manager)
    (tidy : ∀ now strands, invariant now strands →
      ∀ strand ∈ strands, ∃ kind, strand.Tidy manager kind)
    (sharing : Sharing now strands)
    (bounded : ∀ results, Strand.Bounded manager (.running (next results)))
    (steps : ∀ now later before behind strand moved, invariant now (before ++ strand :: behind) →
      Strand.Step manager timing now strand later moved [] →
        invariant later (before ++ moved :: behind))
    (joins : ∀ later (results : List Result),
      invariant later (results.map fun result => .running (.done result)) →
        Strand.Settles manager timing goal
          (later.following (.fork width work) results later.surroundings)
          (.running (next results)))
    (begun : invariant now strands) :
    Strand.Settles manager timing goal now (.waiting width work strands next) := by
  have each : ∀ strand ∈ strands, strand.Bounded manager := by
    intro strand member
    obtain ⟨kind, tidily⟩ := tidy now strands begun strand member
    exact tidily.bounded
  let holding (now : Situation) (whole : Strand) : Prop := ∃ strands,
    whole = .waiting width work strands next ∧ Sharing now strands ∧ invariant now strands
  have begun : holding now (.waiting width work strands next) := ⟨strands, rfl, sharing, begun⟩
  apply Strand.Settles.of_kept (.waiting each bounded) ?_ begun
  · rintro now _ ⟨strands, rfl, sharing, holds⟩
    by_cases done : ∃ results : List Result, strands = results.map fun result => .running (.done result)
    · obtain ⟨results, rfl⟩ := done
      refine .inl (.steps ⟨_, _, _, .join⟩ ?_ ?_)
      · exact fun later moved operations step => (Strand.Step.of_done step).1
      · intro later moved operations step
        obtain ⟨-, rfl, rfl⟩ := Strand.Step.of_done step
        exact joins now results holds
    · have can := (sharing.exists_step (tidy now strands holds)).resolve_left done
      obtain ⟨strand, member, next, moved, operations, can⟩ := can
      refine .inr ⟨?_, ?_⟩
      · obtain ⟨before, behind, rfl⟩ := List.append_of_mem member
        exact ⟨_, _, _, .inner can⟩
      · intro later whole operations step
        cases step with
        | @inner _ _ _ before behind strand moved _ _ step =>
            obtain ⟨kind, tidily⟩ := tidy now _ holds strand (by simp)
            obtain ⟨rfl, -⟩ := tidily.step step
            exact ⟨rfl, _, rfl, sharing.step kept step, steps _ _ _ _ _ _ holds step⟩
        | @join _ _ results _ => exact absurd ⟨results, rfl⟩ done

end Settling

end ZonePropagation.Interleaving
