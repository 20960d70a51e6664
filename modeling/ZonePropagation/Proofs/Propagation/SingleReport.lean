import ZonePropagation.Proofs.Interleaving.Play
import ZonePropagation.Proofs.Propagation.Confirmation
/-!
One confirmed report for one attempt.

While an attempt runs, its rows are written without the lock of its key, and so is the report when
all targets have refused.  A result that is recorded in the meantime can be confirmed, and find
another verdict confirmed later on.  If that does not happen before the attempt returns, then no
more than one report is confirmed.
-/

namespace ZonePropagation.Propagation

open Interleaving

private theorem recording_begun (manager : Manager) {key : ActionKey} {operations : List Operation}
    (recording : ∀ operation ∈ operations, Records key operation) :
    (calling key).Staged (operations.map (Strand.start manager))
        (operations.map (calling key).begins : List Caller) ∧
      ∀ caller ∈ (operations.map (calling key).begins : Multiset Caller), caller = .outsider := by
  refine ⟨.started (calling_kept manager key) fun operation member =>
    .inr (recording operation member), ?_⟩
  intro caller member
  obtain ⟨operation, handed, rfl⟩ := List.mem_map.mp (Multiset.mem_coe.mp member)
  exact begins_of_records (recording operation handed)

private theorem done_keeps {key : ActionKey} {result : Result} :
    (calling key).Keeps (.done result) .outsider := by
  rintro later rfl
  exact ⟨rfl, Standing.noConfusion⟩

/-- An attempt that nobody interferes with, or else callers that record results. -/
def InOrder (key : ActionKey) (world : World) : Prop :=
  (∃ strand, world.strands = [strand] ∧ Attempting key world.now strand) ∨
    ∃ callers, (calling key).Staged world.strands callers ∧ Orderly key world.now callers

namespace InOrder

variable {manager : Manager} {key : ActionKey} {world next : World}

theorem opening {attempt : Operation} {initial : Surroundings} (about : Attempts key attempt)
    (idle : initial.locks.Idle) :
    InOrder key ⟨⟨initial, []⟩, [.start manager attempt]⟩ := by
  have solitary : Solitary key ⟨initial, []⟩ .opening :=
    ⟨rfl, .of_idle idle (by simp [Caller.opening]), rfl⟩
  exact .inl ⟨_, rfl, .running (attempt_goes about) solitary⟩

theorem act (inOrder : InOrder key world)
    (act : World.Act manager anytime world next) : InOrder key next := by
  rcases inOrder with ⟨strand, only, attempting⟩ | ⟨callers, staged, orderly⟩
  · cases act with
    | @act now later before behind strand moved operations step =>
        rcases List.append_eq_singleton_iff.mp only with ⟨rfl, single⟩ | ⟨-, none⟩
        · obtain ⟨rfl, rfl⟩ := List.cons_eq_cons.mp single
          rcases attempting.step step with ⟨rfl, further⟩ | ⟨recording, ended, orderly⟩
          · exact .inl ⟨moved, rfl, further⟩
          · obtain ⟨begun, outside⟩ := recording_begun manager recording
            exact .inr ⟨_, .cons ended begun, orderly.add_outsiders _ outside⟩
        · cases none
  · obtain ⟨after, stagedAfter, turn⟩ := staged.act (calling_kept manager key) act
    exact .inr ⟨after, stagedAfter, orderly.turn turn⟩

theorem reaches (inOrder : InOrder key world)
    (run : World.Reaches manager (fun _ => False) world next) : InOrder key next := by
  induction run with
  | refl => exact inOrder
  | tail _earlier step ih =>
      cases step with
      | act act => exact ih.act act
      | call allowed => exact allowed.elim
      | register kept =>
          rcases ih with ⟨strand, only, attempting⟩ | ⟨callers, staged, orderly⟩
          · exact .inl ⟨strand, only, attempting.registered⟩
          · exact .inr ⟨callers, staged, orderly.registered⟩

theorem orderly_of_returned {result : Result} {started : List Strand}
    (inOrder : InOrder key world)
    (returned : world.strands = .running (.done result) :: started) :
    ∃ callers, (calling key).Staged world.strands callers ∧ Orderly key world.now callers := by
  rcases inOrder with ⟨strand, only, attempting⟩ | orderly
  · rw [returned] at only
    obtain ⟨rfl, rfl⟩ := List.cons_eq_cons.mp only
    cases attempting with
    | @running _ caller keeps solitary =>
        rw [returned]
        exact ⟨_, .one (.running done_keeps), solitary.orderly (keeps caller rfl)⟩
  · exact orderly

end InOrder

theorem records_of_started {manager : Manager} {key : ActionKey} {timing : Timing}
    {now later : Situation} {strand moved : Strand} {operations : List Operation}
    {stages : Multiset Caller}
    (step : Strand.Step manager timing now strand later moved operations)
    (here : (calling key).At strand stages) : ∀ operation ∈ operations, Records key operation := by
  induction step generalizing stages with
  | @perform effect next reply after single answer =>
      cases here with
      | @running _ caller keeps =>
          obtain ⟨⟨allowed, -⟩, -⟩ := keeps caller rfl
          cases effect with
          | detach work => exact allowed.2.2.2
          | _ => exact fun _ member => nomatch member
  | fork | join => exact fun _ member => nomatch member
  | inner _step ih =>
      cases here with
      | waiting _ inner _ =>
          obtain ⟨_, _, -, there, -⟩ := inner.split
          cases there with
          | cons atStrand _ => exact ih atStrand

structure Overlapping (key : ActionKey) (world : World) (main : Strand) (rest : List Strand)
    (mine callers : Multiset Caller) : Prop where
  strands : world.strands = main :: rest
  attempt : (calling key).At main mine
  staged : (calling key).Staged rest callers
  guarded : Guarded world.now.surroundings.locks ((mine + callers).map Caller.hold)
  calm : ∀ caller ∈ callers, caller.Calm key

namespace Overlapping

variable {manager : Manager} {key : ActionKey} {world next : World} {main : Strand}
  {rest : List Strand} {mine callers : Multiset Caller}

theorem opening {attempt : Operation} {initial : Surroundings} (about : Attempts key attempt)
    (idle : initial.locks.Idle) :
    Overlapping key ⟨⟨initial, []⟩, [.start manager attempt]⟩ (.start manager attempt) []
      {.opening} 0 where
  strands := rfl
  attempt := .running (attempt_goes about)
  staged := .nil
  guarded := .of_idle idle (by simp [Caller.opening])
  calm := by simp

theorem act (overlapping : Overlapping key world main rest mine callers)
    (act : World.Act manager anytime world next) :
    ∃ main rest mine callers, Overlapping key next main rest mine callers := by
  obtain ⟨strands, attempt, staged, guarded, calm⟩ := overlapping
  cases act with
  | @act now later before behind strand moved operations step =>
      cases before with
      | nil =>
          obtain ⟨rfl, rfl⟩ := List.cons_eq_cons.mp strands
          obtain ⟨after, atMoved, -, turn⟩ := attempt.step (calling_kept manager key) step
          obtain ⟨begun, outside⟩ := recording_begun manager (records_of_started step attempt)
          refine ⟨moved, _, after, _, rfl, atMoved, staged.append begun, ?_, ?_⟩
          · rw [← add_assoc]
            exact guarded_turn guarded (turn callers)
          · intro caller member
            rcases Multiset.mem_add.mp member with earlier | new
            · exact calm caller earlier
            · rw [outside caller new]
              exact .outsider key
      | cons first before =>
          obtain ⟨rfl, rfl⟩ := List.cons_eq_cons.mp strands
          obtain ⟨near, _, nearby, there, rfl⟩ := staged.split
          cases there with
          | @cons _ _ own others atStrand far =>
              obtain ⟨after, atMoved, -, turn⟩ := atStrand.step (calling_kept manager key) step
              obtain ⟨begun, -⟩ := recording_begun manager (records_of_started step atStrand)
              refine ⟨first, _, mine, _, rfl, attempt,
                (nearby.append (.cons atMoved far)).append begun, ?_, ?_⟩
              · have turned := turn (mine + (near + others))
                have from_here : own + (mine + (near + others)) =
                    mine + (near + (own + others)) := by
                  abel
                have to_there : after + (mine + (near + others)) =
                    mine + (near + (after + others)) := by
                  abel
                rw [from_here, to_there, add_assoc] at turned
                exact guarded_turn guarded turned
              · have turned := turn (near + others)
                rw [add_left_comm own, add_left_comm after] at turned
                exact calm_turn calm turned

theorem reaches {attempt : Operation} {initial : Surroundings} (about : Attempts key attempt)
    (idle : initial.locks.Idle)
    (run : World.Reaches manager (Records key) ⟨⟨initial, []⟩, [.start manager attempt]⟩ world) :
    ∃ main rest mine callers, Overlapping key world main rest mine callers := by
  induction run with
  | refl => exact ⟨_, _, _, _, opening about idle⟩
  | tail _earlier step ih =>
      obtain ⟨main, rest, mine, callers, overlapping⟩ := ih
      cases step with
      | act act => exact overlapping.act act
      | @call _ operation records =>
          obtain ⟨strands, attempt, staged, guarded, calm⟩ := overlapping
          have begun : (calling key).At (.start manager operation) {.outsider} := by
            have keeps := calling_kept manager key operation (.inr records)
            rw [begins_of_records records] at keeps
            exact .running keeps
          refine ⟨main, _, mine, _, congrArg (· ++ _) strands, attempt, staged.append (.one begun),
            ?_, ?_⟩
          · rw [← add_assoc, Multiset.map_add]
            exact (Guarded.add_idle (by simp [Caller.outsider])).mpr guarded
          · intro caller member
            rcases Multiset.mem_add.mp member with earlier | new
            · exact calm caller earlier
            · rw [Multiset.mem_singleton.mp new]
              exact .outsider key
      | register kept =>
          obtain ⟨strands, attempt, staged, guarded, calm⟩ := overlapping
          exact ⟨main, rest, mine, callers, strands, attempt, staged, guarded, calm⟩

/-- When the attempt has returned and nothing was confirmed, all callers are in order. -/
theorem orderly_of_returned {result : Result} {started : List Strand}
    (overlapping : Overlapping key world main rest mine callers)
    (returned : world.strands = .running (.done result) :: started)
    (unconfirmed : confirmedReports world.now.past = 0) :
    ∃ callers, (calling key).Staged world.strands callers ∧ Orderly key world.now callers := by
  obtain ⟨strands, attempt, staged, guarded, calm⟩ := overlapping
  rw [returned] at strands ⊢
  obtain ⟨rfl, rfl⟩ := List.cons_eq_cons.mp strands
  cases attempt with
  | @running _ caller keeps =>
      have free : caller.hold = .nothing := (keeps caller rfl).1
      rw [Multiset.map_add, Multiset.map_singleton, free] at guarded
      refine ⟨_, .cons (.running done_keeps) staged, ?_, ?_, .inl unconfirmed⟩
      · rw [Multiset.map_add]
        exact guarded
      · intro other member
        rcases Multiset.mem_add.mp member with mine | others
        · rw [Multiset.mem_singleton.mp mine]
          exact .outsider key
        · exact calm other others

end Overlapping

/-- Results are recorded under the key of an attempt at any time.  If none is until the attempt has
returned, or no report was accepted by then, then the registry accepts one report at most, however
the attempt, the verifications that it hands out and the calls that record results go on. -/
theorem report_confirmed_once {manager : Manager} {key : ActionKey} {attempt : Operation}
    {initial : Surroundings} {returned last : World} {result : Result} {started : List Strand}
    (about : Attempts key attempt) (idle : initial.locks.Idle)
    (run : World.Reaches manager (fun _ => False)
        ⟨⟨initial, []⟩, [.start manager attempt]⟩ returned ∨
      World.Reaches manager (Records key) ⟨⟨initial, []⟩, [.start manager attempt]⟩ returned ∧
        confirmedReports returned.now.past = 0)
    (done : returned.strands = .running (.done result) :: started)
    (afterwards : World.Reaches manager (Records key) returned last) :
    confirmedReports last.now.past ≤ 1 := by
  have ordered : ∃ callers,
      (calling key).Staged returned.strands callers ∧ Orderly key returned.now callers := by
    rcases run with apart | ⟨together, unconfirmed⟩
    · exact ((InOrder.opening about idle).reaches apart).orderly_of_returned done
    · obtain ⟨_, _, _, _, overlapping⟩ := Overlapping.reaches about idle together
      exact overlapping.orderly_of_returned done unconfirmed
  obtain ⟨callers, staged, orderly⟩ := ordered
  have calls : ∀ (now : Situation) (callers : Multiset Caller) (operation : Operation),
      Records key operation → Orderly key now callers →
        Orderly key now ((calling key).begins operation ::ₘ callers) := by
    intro now callers operation records orderly
    rw [begins_of_records records, ← Multiset.singleton_add, add_comm]
    exact orderly.add_outsiders _ fun other member => Multiset.mem_singleton.mp member
  obtain ⟨others, -, kept⟩ := staged.reaches (calling_kept manager key) (fun _ => .inr)
    (fun _ _ _ _ turn held => held.turn turn) calls (fun _ _ _ _ held => held.registered) orderly
    afterwards
  exact kept.confirmed_once

private def pendingUpdate : Zone where
  id := "z"
  name := "z."
  serial := 10
  action := .update
  status := .pending
  poolId := "p"
  updatedAt := ⟨0, 0⟩

private def oneOfTwo : Manager where
  topology := { pools := [{ id := "p", name := "p", nameservers := [⟨"n", 53⟩, ⟨"m", 53⟩]
                            threshold := 50 }] }
  policy := { probe := ⟨1000, 100, 3⟩, detached := true }

private def untilNow : Surroundings where
  status := .memory { ttl := 1 }
  registry := .memory { zones := [pendingUpdate] }

private def servesUpdate : Probe := { outcome := .ok, serial := some 10, attempts := 1 }

private def updateCalled : World :=
  ⟨⟨untilNow, []⟩, [.start oneOfTwo (.propagate pendingUpdate .update)]⟩

private theorem update_attempts : Attempts ⟨"z", .update⟩ (.propagate pendingUpdate .update) :=
  ⟨rfl, rfl⟩

private theorem untilNow_idle : untilNow.locks.Idle :=
  ⟨⟨by decide, by decide, by decide⟩, rfl, rfl⟩

private def hasReturned (world : World) : Bool :=
  match world.strands with
  | .running (.done _) :: _ => true
  | _ => false

private theorem returned_of_hasReturned {world : World} (returned : hasReturned world = true) :
    ∃ result started, world.strands = .running (.done result) :: started := by
  unfold hasReturned at returned
  split at returned
  · next result started same => exact ⟨result, started, same⟩
  · cases returned

private def recordsFirst : Operation := .record pendingUpdate ⟨"n", 53⟩ .success (some 10)

private def untilReturned : List Move :=
  .act 0 servesUpdate :: .call recordsFirst :: List.replicate 7 (.act 0 servesUpdate)

/-- A result is recorded by a call that began before the update returned, and is confirmed. -/
theorem report_confirmed_once_update : ∃ (returned last : World) (result : Result)
    (started : List Strand),
    (World.Reaches oneOfTwo (Records ⟨"z", .update⟩) updateCalled returned ∧
        confirmedReports returned.now.past = 0) ∧
      returned.strands = .running (.done result) :: started ∧
      World.Reaches oneOfTwo (Records ⟨"z", .update⟩) returned last ∧
      confirmedReports last.now.past = 1 ∧ confirmedReports last.now.past ≤ 1 := by
  have first : (updateCalled.playAll oneOfTwo untilReturned).any (fun returned =>
      hasReturned returned && confirmedReports returned.now.past == 0) = true := by
    decide +kernel
  have more : (updateCalled.playAll oneOfTwo
      (untilReturned ++ List.replicate 11 (.act 1 servesUpdate))).any (fun last =>
        confirmedReports last.now.past == 1) = true := by
    decide +kernel
  obtain ⟨returned, playedFirst, seen⟩ := (Option.any_eq_true _ _).mp first
  obtain ⟨last, playedMore, confirmed⟩ := (Option.any_eq_true _ _).mp more
  rw [Bool.and_eq_true, beq_iff_eq] at seen
  unfold World.playAll at playedFirst playedMore
  rw [List.foldlM_append, playedFirst] at playedMore
  have recording : ∀ operation, .call operation ∈ untilReturned →
      Records ⟨"z", .update⟩ operation := by
    intro operation member
    simp only [untilReturned, List.mem_cons, List.mem_replicate, reduceCtorEq, and_false, or_false,
      false_or, Move.call.injEq] at member
    rw [member]
    rfl
  have run : World.Reaches oneOfTwo (Records ⟨"z", .update⟩) updateCalled returned :=
    World.playAll_reaches recording playedFirst
  have afterwards : World.Reaches oneOfTwo (Records ⟨"z", .update⟩) returned last :=
    World.playAll_reaches (by simp) playedMore
  obtain ⟨result, started, same⟩ := returned_of_hasReturned seen.1
  exact ⟨returned, last, result, started, ⟨run, seen.2⟩, same, afterwards,
    beq_iff_eq.mp confirmed,
    report_confirmed_once update_attempts untilNow_idle (.inr ⟨run, seen.2⟩) same afterwards⟩

private def overlapping : List Move :=
  List.replicate 6 (.act 0 servesUpdate) ++
    .call recordsFirst ::
      (List.replicate 11 (.act 1 servesUpdate) ++ List.replicate 2 (.act 0 servesUpdate) ++
        List.replicate 14 (.act 2 servesUpdate))

private def beganByClearing (key : ActionKey) (past : List Event) : Bool :=
  match past.getLast? with
  | some ⟨.clearRows cleared, .ok ()⟩ => cleared == key
  | _ => false

private theorem eq_of_beganByClearing {key : ActionKey} {past : List Event}
    (began : beganByClearing key past = true) :
    past = past.dropLast ++ [⟨.clearRows key, .ok ()⟩] := by
  unfold beganByClearing at began
  split at began
  · next cleared last =>
      obtain ⟨earlier, rfl⟩ := List.getLast?_eq_some_iff.mp last
      rw [List.dropLast_concat, beq_iff_eq.mp began]
  · cases began

/-- Two reports are confirmed after an attempt has cleared the rows, when a result is recorded while
the attempt still writes rows of its own, which it does without the lock. -/
theorem report_confirmed_twice : ∃ (manager : Manager) (key : ActionKey) (attempt : Operation)
    (initial : Surroundings) (last : World) (since : List Event),
    Attempts key attempt ∧ initial.locks.Idle ∧
      World.Reaches manager (Records key) ⟨⟨initial, []⟩, [.start manager attempt]⟩ last ∧
      last.now.past = since ++ [⟨.clearRows key, .ok ()⟩] ∧ confirmedReports since = 2 := by
  have played : (updateCalled.playAll oneOfTwo overlapping).any (fun last =>
      beganByClearing ⟨"z", .update⟩ last.now.past &&
        confirmedReports last.now.past.dropLast == 2) = true := by
    decide +kernel
  obtain ⟨last, moved, seen⟩ := (Option.any_eq_true _ _).mp played
  rw [Bool.and_eq_true, beq_iff_eq] at seen
  have recording : ∀ operation, .call operation ∈ overlapping →
      Records ⟨"z", .update⟩ operation := by
    intro operation member
    simp only [overlapping, List.mem_append, List.mem_cons, List.mem_replicate, reduceCtorEq,
      and_false, or_false, false_or, Move.call.injEq] at member
    rw [member]
    rfl
  exact ⟨oneOfTwo, _, _, untilNow, last, _, update_attempts, untilNow_idle,
    World.playAll_reaches recording moved, eq_of_beganByClearing seen.1, seen.2⟩

end ZonePropagation.Propagation
