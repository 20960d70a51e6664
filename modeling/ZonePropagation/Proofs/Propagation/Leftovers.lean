import ZonePropagation.Proofs.Propagation.Locking
/-!
Entries of locks that are left behind.

A caller drops the entry of its lock only if it is the last one with a handle.  Between that test
and the return of its own handle it still counts as one, so that two callers that finish together
may each leave the entry to the other.  Once all callers have returned, a lock has an entry exactly
when more than one handle came back after the last test.
-/

namespace ZonePropagation

namespace LockTable

variable {table : LockTable} {key : ActionKey} {lock other : Nat}

theorem Sound.countP_entries (sound : table.Sound) (member : (key, lock) ∈ table.entries) :
    table.entries.countP (fun entry => entry.2 == lock) = 1 := by
  have counted := List.count_eq_one_of_mem sound.locks (List.mem_map_of_mem (f := Prod.snd) member)
  rw [List.count, List.countP_map] at counted
  exact counted

theorem Sound.retires_iff (sound : table.Sound) (member : (key, lock) ∈ table.entries) :
    (table.lock? key = some lock ∧ table.references lock ≤ 2) ↔ table.handles.count lock ≤ 1 := by
  have found := sound.lock_iff.mpr member
  rw [references, sound.countP_entries member]
  constructor
  · intro few
    omega
  · intro single
    exact ⟨found, by omega⟩

theorem Sound.entry_retire (sound : table.Sound) (member : (key, lock) ∈ table.entries) :
    (∃ name, (name, lock) ∈ (table.retire key lock).entries) ↔ 2 ≤ table.handles.count lock := by
  unfold retire
  split
  · next few =>
      have single := (sound.retires_iff member).mp few
      constructor
      · intro kept
        obtain ⟨name, inside⟩ := kept
        obtain ⟨before, different⟩ := List.mem_filter.mp inside
        have same := List.inj_on_of_nodup_map sound.locks before member rfl
        cases same
        simp at different
      · intro many
        omega
  · next shared =>
      have many := mt (sound.retires_iff member).mpr shared
      constructor
      · intro _kept
        omega
      · intro _many
        exact ⟨key, member⟩

theorem Sound.entry_retire_of_ne (sound : table.Sound) (member : (key, lock) ∈ table.entries)
    (different : other ≠ lock) :
    (∃ name, (name, other) ∈ (table.retire key lock).entries) ↔
      ∃ name, (name, other) ∈ table.entries := by
  unfold retire
  split
  · apply exists_congr
    intro name
    rw [List.mem_filter]
    constructor
    · exact fun kept => kept.1
    · intro before
      refine ⟨before, ?_⟩
      rw [bne_iff_ne]
      intro same
      have both := List.inj_on_of_nodup_map sound.keys before member same
      exact different (congrArg Prod.snd both)
  · exact Iff.rfl

end LockTable

namespace Interleaving

open Propagation

def returnsOf (lock : Nat) : List Event → Nat
  | [] => 0
  | ⟨.retire _ other, _⟩ :: past => if other = lock then 0 else returnsOf lock past
  | ⟨.leave other, _⟩ :: past =>
      if other = lock then returnsOf lock past + 1 else returnsOf lock past
  | _ :: past => returnsOf lock past

theorem returnsOf_of_turnsLocks {effect : Effect} (still : turnsLocks effect = false)
    (reply : Reply effect) (lock : Nat) (past : List Event) :
    returnsOf lock (⟨effect, reply⟩ :: past) = returnsOf lock past := by
  cases effect with
  | enter _ | acquire _ | release _ | retire _ _ | leave _ => cases still
  | _ => rfl

/-- A lock on which nobody relies has an entry exactly when the last caller that tried to drop it
was not the only one with a handle. -/
def Accounted (past : List Event) (table : LockTable) (holds : Multiset Hold) : Prop :=
  ∀ lock, (∀ hold ∈ holds, ∀ key, hold.entry? ≠ some (key, lock)) →
    ((∃ key, (key, lock) ∈ table.entries) ↔
      2 ≤ returnsOf lock past + table.handles.count lock)

namespace Accounted

variable {past : List Event} {table after : LockTable} {key : ActionKey} {lock : Nat}
  {hold next : Hold} {holds rest : Multiset Hold}

theorem opening (unused : table.entries = []) (idle : table.handles = []) :
    Accounted [] table holds := by
  intro lock _unreliable
  rw [unused, idle]
  simp [returnsOf]

theorem replace (accounted : Accounted past table (hold ::ₘ rest))
    (relies : ∀ key lock, hold.entry? = some (key, lock) → next.entry? = some (key, lock))
    {later : List Event} (returned : ∀ lock, returnsOf lock later = returnsOf lock past)
    (entries : after.entries = table.entries) (handles : after.handles = table.handles) :
    Accounted later after (next ::ₘ rest) := by
  intro lock unreliable
  rw [returned, entries, handles]
  apply accounted
  intro other member key relying
  rcases Multiset.mem_cons.mp member with same | inRest
  · rw [same] at relying
    exact unreliable next (Multiset.mem_cons_self _ _) key (relies key lock relying)
  · exact unreliable other (Multiset.mem_cons_of_mem inRest) key relying

theorem enter (accounted : Accounted past table (.nothing ::ₘ rest)) :
    Accounted (⟨.enter key, (table.enter key).1⟩ :: past) (table.enter key).2
      (.waits key (table.enter key).1 ::ₘ rest) := by
  intro lock unreliable
  have different : lock ≠ (table.enter key).1 := by
    intro same
    exact unreliable _ (Multiset.mem_cons_self _ _) key (by rw [same]; rfl)
  have before := accounted lock (by
    intro other member name relying
    rcases Multiset.mem_cons.mp member with same | inRest
    · rw [same] at relying
      cases relying
    · exact unreliable other (Multiset.mem_cons_of_mem inRest) name relying)
  have counted : (table.enter key).2.handles.count lock = table.handles.count lock := by
    unfold LockTable.enter at different ⊢
    split
    · next found =>
        rw [found] at different
        exact List.count_cons_of_ne different.symm
    · next absent =>
        rw [absent] at different
        exact List.count_cons_of_ne different.symm
  have listed : (∃ name, (name, lock) ∈ (table.enter key).2.entries) ↔
      ∃ name, (name, lock) ∈ table.entries := by
    unfold LockTable.enter at different ⊢
    split
    · exact Iff.rfl
    · next absent =>
        rw [absent] at different
        apply exists_congr
        intro name
        rw [List.mem_cons, Prod.mk.injEq, or_iff_right fun both => different both.2]
  rw [listed, counted]
  exact before

theorem retire (accounted : Accounted past table (.released key lock ::ₘ rest))
    (guarded : Guarded table (.released key lock ::ₘ rest)) :
    Accounted (⟨.retire key lock, ()⟩ :: past) (table.retire key lock)
      (.retired lock ::ₘ rest) := by
  have member : (key, lock) ∈ table.entries :=
    guarded.sound.lock_iff.mp (guarded.here key lock rfl)
  have handles : (table.retire key lock).handles = table.handles := by
    unfold LockTable.retire
    split
    · rfl
    · rfl
  intro other unreliable
  rw [handles]
  by_cases same : other = lock
  · subst same
    rw [guarded.sound.entry_retire member]
    simp [returnsOf]
  · rw [guarded.sound.entry_retire_of_ne member same, returnsOf, if_neg (Ne.symm same)]
    apply accounted
    intro one present name relying
    rcases Multiset.mem_cons.mp present with here | inRest
    · rw [here] at relying
      cases relying
      exact same rfl
    · exact unreliable one (Multiset.mem_cons_of_mem inRest) name relying

theorem leave (accounted : Accounted past table (.retired lock ::ₘ rest))
    (guarded : Guarded table (.retired lock ::ₘ rest)) :
    Accounted (⟨.leave lock, ()⟩ :: past) (table.leave lock) (.nothing ::ₘ rest) := by
  intro other unreliable
  have before := accounted other (by
    intro one member name relying
    rcases Multiset.mem_cons.mp member with same | inRest
    · rw [same] at relying
      cases relying
    · exact unreliable one (Multiset.mem_cons_of_mem inRest) name relying)
  have mine : 0 < table.handles.count lock := by
    rw [guarded.handles, Multiset.countP_pos]
    exact ⟨.retired lock, Multiset.mem_cons_self _ _, rfl⟩
  change (∃ name, (name, other) ∈ table.entries) ↔ _
  rw [before, returnsOf, LockTable.leave, List.count_erase]
  by_cases same : lock = other
  · subst same
    rw [if_pos rfl, if_pos (beq_self_eq_true _)]
    omega
  · rw [if_neg same, if_neg (by simpa using same), Nat.sub_zero]

theorem add_idle {idle : Multiset Hold} (all : ∀ hold ∈ idle, hold = .nothing) :
    Accounted past table (holds + idle) ↔ Accounted past table holds := by
  apply forall_congr'
  intro lock
  apply imp_congr_left
  constructor
  · intro unreliable hold member
    exact unreliable hold (Multiset.mem_add.mpr (.inl member))
  · intro unreliable hold member key
    rcases Multiset.mem_add.mp member with inHolds | inIdle
    · exact unreliable hold inHolds key
    · rw [all hold inIdle]
      exact fun impossible => nomatch impossible

theorem following {timing : Timing} {before left : Surroundings} {effect : Effect}
    {reply : Reply effect} (accounted : Accounted past before.locks (hold ::ₘ rest))
    (guarded : Guarded before.locks (hold ::ₘ rest)) (allowed : hold.allows effect)
    (answer : Answers timing before effect reply left) :
    Accounted (⟨effect, reply⟩ :: past) left.locks (hold.next effect reply ::ₘ rest) := by
  cases turning : turnsLocks effect with
  | false =>
      rw [answer.unchanged.2.2 turning, Hold.next_of_turnsLocks turning]
      exact accounted.replace (fun _ _ relies => relies)
        (fun lock => returnsOf_of_turnsLocks turning reply lock past) rfl rfl
  | true =>
      cases effect with
      | acquire lock =>
          obtain ⟨key, waits⟩ := allowed
          subst waits
          rw [answer.2]
          apply accounted.replace
          · exact fun _ _ relies => relies
          · exact fun _ => rfl
          · rfl
          · rfl
      | enter key =>
          obtain ⟨Outside, channel, clock, outside, outside', _timely, outcome⟩ := answer
          cases outcome
          cases allowed
          exact accounted.enter
      | release lock =>
          obtain ⟨Outside, channel, clock, outside, outside', _timely, outcome⟩ := answer
          cases outcome
          obtain ⟨key, works⟩ := allowed
          subst works
          apply accounted.replace
          · exact fun _ _ relies => relies
          · exact fun _ => rfl
          · rfl
          · rfl
      | retire key lock =>
          obtain ⟨Outside, channel, clock, outside, outside', _timely, outcome⟩ := answer
          cases outcome
          cases allowed
          exact accounted.retire guarded
      | leave lock =>
          obtain ⟨Outside, channel, clock, outside, outside', _timely, outcome⟩ := answer
          cases outcome
          cases allowed
          exact accounted.leave guarded
      | _ => cases turning

theorem turn {timing : Timing} {now later : Situation} {moved : Multiset Hold}
    (accounted : Accounted now.past now.surroundings.locks holds)
    (guarded : Guarded now.surroundings.locks holds)
    (turn : locking.Turn timing now holds later moved) :
    Accounted later.past later.surroundings.locks moved := by
  have idle : ∀ operations : List Operation,
      ∀ hold ∈ (operations.map locking.begins : Multiset Hold), hold = .nothing := by
    intro operations hold member
    obtain ⟨operation, -, same⟩ := List.mem_map.mp (Multiset.mem_coe.mp member)
    exact same.symm
  cases turn with
  | perform single allowed answer =>
      rw [← Multiset.cons_add]
      exact (add_idle (idle _)).mpr (accounted.following guarded allowed answer)
  | fork _allowed =>
      rw [← Multiset.cons_add]
      exact (add_idle (idle _)).mpr accounted
  | join _allowed ended =>
      rw [← Multiset.cons_add] at accounted
      have kept := (add_idle ended).mp accounted
      exact kept.replace (fun _ _ relies => relies) (fun _ => rfl) rfl rfl

end Accounted

end Interleaving

namespace Propagation

open Interleaving

theorem staged_callers {callers : List (ActionKey × Program Result)}
    (free : ∀ caller ∈ callers, LockFree caller.2) :
    locking.Staged (callers.map fun caller => .running (locked caller.1 caller.2))
      (callers.map fun _ => Hold.nothing : List Hold) := by
  induction callers with
  | nil => exact .nil
  | cons caller callers ih =>
      have lockFree := free caller List.mem_cons_self
      have rests : Rests .nothing (locked caller.1 caller.2) :=
        Rests.locked fun lock => Rests.of_lockFree lockFree
      exact .cons (.running rests) (ih fun other member => free other (by simp [member]))

/-- When all callers have returned, the locks with an entry are those on which more than one handle
came back after the last try to drop the entry. -/
theorem entries_left_iff {manager : Manager} {may : Operation → Prop} {initial : Surroundings}
    {callers : List (ActionKey × Program Result)} {world : World} {results : List Result}
    (idle : initial.locks.Idle) (unused : initial.locks.entries = [])
    (free : ∀ caller ∈ callers, LockFree caller.2)
    (run : World.Reaches manager may
      ⟨⟨initial, []⟩, callers.map fun caller => .running (locked caller.1 caller.2)⟩ world)
    (returned : world.strands = results.map fun result => .running (.done result)) :
    (∀ lock, (∃ key, (key, lock) ∈ world.now.surroundings.locks.entries) ↔
      2 ≤ returnsOf lock world.now.past) ∧
    (world.now.surroundings.locks.entries = [] ↔
      ∀ lock, returnsOf lock world.now.past ≤ 1) := by
  have waiting : ∀ hold ∈ (callers.map fun _ => Hold.nothing : Multiset Hold),
      hold = .nothing := by
    intro hold member
    obtain ⟨_, -, same⟩ := List.mem_map.mp (Multiset.mem_coe.mp member)
    exact same.symm
  have turns : ∀ now holds later after, locking.Turn anytime now holds later after →
      Guarded now.surroundings.locks holds ∧
        Accounted now.past now.surroundings.locks holds →
      Guarded later.surroundings.locks after ∧
        Accounted later.past later.surroundings.locks after :=
    fun _ _ _ _ turn kept => ⟨kept.1.turn turn, kept.2.turn kept.1 turn⟩
  have calls : ∀ (now : Situation) (holds : Multiset Hold) (operation : Operation),
      may operation → Guarded now.surroundings.locks holds ∧
        Accounted now.past now.surroundings.locks holds →
      Guarded now.surroundings.locks (locking.begins operation ::ₘ holds) ∧
        Accounted now.past now.surroundings.locks (locking.begins operation ::ₘ holds) := by
    intro now holds operation _allowed kept
    have begun : ∀ hold ∈ ({locking.begins operation} : Multiset Hold), hold = .nothing := by
      simp [locking]
    rw [← Multiset.singleton_add, add_comm]
    exact ⟨(Guarded.add_idle begun).mpr kept.1, (Accounted.add_idle begun).mpr kept.2⟩
  obtain ⟨holds, staged, guarded, accounted⟩ := (staged_callers free).reaches
    (locking_kept manager) (fun _ _ => trivial) turns calls (fun _ _ _ _ kept => kept)
    ⟨Guarded.of_idle idle waiting, Accounted.opening unused idle.handles⟩ run
  rw [returned] at staged
  have done : ∀ hold ∈ holds, hold = .nothing := staged.ended
  have left : ∀ lock, (∃ key, (key, lock) ∈ world.now.surroundings.locks.entries) ↔
      2 ≤ returnsOf lock world.now.past := by
    intro lock
    have none : world.now.surroundings.locks.handles.count lock = 0 := by
      rw [guarded.handles, Multiset.countP_eq_zero]
      intro hold member
      rw [done hold member]
      intro impossible
      cases impossible
    have unrelied : ∀ hold ∈ holds, ∀ key, hold.entry? ≠ some (key, lock) := by
      intro hold member key
      rw [done hold member]
      intro impossible
      cases impossible
    have exact_count := accounted lock unrelied
    rwa [none, Nat.add_zero] at exact_count
  constructor
  · exact left
  · constructor
    · intro empty lock
      by_contra many
      obtain ⟨key, member⟩ := (left lock).mpr (by omega)
      rw [empty] at member
      cases member
    · intro few
      rw [List.eq_nil_iff_forall_not_mem]
      intro entry member
      have many := (left entry.2).mp ⟨entry.1, member⟩
      have single := few entry.2
      omega

private def turnsOf (places : List Nat) : List Move :=
  places.map fun place => .act place { outcome := .timeout, serial := none, attempts := 1 }

private def lockless : Surroundings where
  status := .memory { ttl := 1 }
  registry := .memory {}

private def idleManager : Manager where
  topology := {}
  policy := { probe := ⟨1000, 100, 3⟩ }

private def restingCallers : List (ActionKey × Program Result) :=
  List.replicate 2 (⟨"z", .update⟩, return .finished true)

/-- The second caller has waited for the first one, which returns its handle before the second one
tests whether it is the last. -/
theorem entries_left_iff_two : ∃ (world : World) (results : List Result),
    World.Reaches idleManager (fun _ => False)
      ⟨⟨lockless, []⟩, restingCallers.map fun caller => .running (locked caller.1 caller.2)⟩
      world ∧
    world.strands = results.map (fun result => .running (.done result)) ∧
    returnsOf 0 world.now.past = 1 ∧ world.now.surroundings.locks.entries = [] ∧
    (∀ lock, (∃ key, (key, lock) ∈ world.now.surroundings.locks.entries) ↔
      2 ≤ returnsOf lock world.now.past) ∧
    (world.now.surroundings.locks.entries = [] ↔
      ∀ lock, returnsOf lock world.now.past ≤ 1) := by
  have played : ((⟨⟨lockless, []⟩, restingCallers.map fun caller =>
      .running (locked caller.1 caller.2)⟩ : World).playAll idleManager
      (turnsOf [0, 0, 1, 0, 0, 0, 1, 1, 1, 1])).any
      (fun world => (resultsOf world.strands).isSome && returnsOf 0 world.now.past == 1 &&
        world.now.surroundings.locks.entries == []) = true := by
    decide +kernel
  obtain ⟨world, moved, seen⟩ := (Option.any_eq_true _ _).mp played
  simp only [Bool.and_eq_true, beq_iff_eq, Option.isSome_iff_exists] at seen
  obtain ⟨⟨⟨results, done⟩, once⟩, entries⟩ := seen
  have run : World.Reaches idleManager (fun _ => False)
      ⟨⟨lockless, []⟩, restingCallers.map fun caller => .running (locked caller.1 caller.2)⟩
      world := World.playAll_reaches (by simp [turnsOf]) moved
  have idle : lockless.locks.Idle := ⟨⟨by decide, by decide, by decide⟩, rfl, rfl⟩
  have free : ∀ caller ∈ restingCallers, LockFree caller.2 := by
    intro caller member
    rw [List.eq_of_mem_replicate member]
    exact .pure _
  have returned := resultsOf_some done
  exact ⟨world, results, run, returned, once, entries,
    entries_left_iff idle rfl free run returned⟩

private def managerOfOne : Manager where
  topology := { pools := [{
    id := "p", name := "p", targets := [], nameservers := [⟨"a", 53⟩], threshold := 100 }] }
  policy := { probe := ⟨1000, 100, 3⟩ }

private def unawaited : Zone where
  id := "z"
  name := "z."
  serial := 10
  action := .update
  status := .pending
  poolId := "p"
  updatedAt := ⟨0, 0⟩

private def lateResult : Operation := .record unawaited ⟨"a", 53⟩ .success (some 10)

private def overlappingReturns : List Move :=
  [.call lateResult, .call lateResult] ++ turnsOf [0, 0, 1, 0, 0, 0, 1, 1, 1, 1, 0, 1]

/-- Two results that are ignored leave the entry of their lock, although both calls have
returned. -/
theorem returned_callers_leave_entry : ∃ (world : World) (results : List Result),
    World.Reaches managerOfOne (fun operation => operation = lateResult) (.opening lockless)
      world ∧
    world.strands = results.map (fun result => .running (.done result)) ∧
    results.length = 2 ∧
    world.now.surroundings.locks.handles = [] ∧
    world.now.surroundings.locks.entries = [(⟨"z", .update⟩, 0)] := by
  have played : ((World.opening lockless).playAll managerOfOne overlappingReturns).any
      (fun world => (resultsOf world.strands).any (fun results => results.length == 2) &&
        world.now.surroundings.locks.handles == [] &&
        world.now.surroundings.locks.entries == [(⟨"z", .update⟩, 0)]) = true := by
    decide +kernel
  obtain ⟨world, moved, seen⟩ := (Option.any_eq_true _ _).mp played
  simp only [Bool.and_eq_true, beq_iff_eq, Option.any_eq_true] at seen
  obtain ⟨⟨⟨results, done, two⟩, handles⟩, entries⟩ := seen
  refine ⟨world, results, World.playAll_reaches ?_ moved, resultsOf_some done, two, handles,
    entries⟩
  simp [overlappingReturns, turnsOf]

end Propagation

end ZonePropagation
