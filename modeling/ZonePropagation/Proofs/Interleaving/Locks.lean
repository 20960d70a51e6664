import ZonePropagation.Proofs.Interleaving.Answers
import ZonePropagation.Proofs.Interleaving.Stages
import ZonePropagation.Proofs.Keyed
/-!
The use of locks.

A lock may lose its entry while others ask for it, and is then made anew.  It is safe since an
entry is dropped only if no other program has a handle on its lock.  The invariant ties the handles,
the locks that are held and the entries to the stages of all programs.
-/

namespace ZonePropagation

/-- No two entries have the same key or the same lock, and new locks get a new number. -/
structure LockTable.Sound (table : LockTable) : Prop where
  keys : (table.entries.map Prod.fst).Nodup
  locks : (table.entries.map Prod.snd).Nodup
  fresh : ∀ entry ∈ table.entries, entry.2 < table.next

structure LockTable.Idle (table : LockTable) : Prop extends table.Sound where
  handles : table.handles = []
  held : table.held = []

theorem LockTable.Sound.lock_iff {table : LockTable} {key : ActionKey} {lock : Nat}
    (sound : table.Sound) : table.lock? key = some lock ↔ (key, lock) ∈ table.entries := by
  constructor
  · intro found
    obtain ⟨⟨name, number⟩, first, rfl⟩ := Option.map_eq_some_iff.mp found
    obtain ⟨listed, rfl⟩ := (find?_key_eq_some_iff sound.keys).mp first
    exact listed
  · intro member
    have found := (find?_key_eq_some_iff sound.keys).mpr ⟨member, rfl⟩
    unfold LockTable.lock?
    rw [found, Option.map_some]

theorem LockTable.key_ne_of_lock_none {table : LockTable} {key : ActionKey}
    (absent : table.lock? key = none) : ∀ entry ∈ table.entries, entry.1 ≠ key := by
  intro entry member
  have none := List.find?_eq_none.mp (Option.map_eq_none_iff.mp absent) entry member
  simpa using none

namespace Interleaving

open Propagation

/-- How far a program is in the use of a lock.  When it has released the lock it drops the entry, and
then its handle. -/
inductive Hold where
  | nothing
  | waits (key : ActionKey) (lock : Nat)
  | works (key : ActionKey) (lock : Nat)
  | released (key : ActionKey) (lock : Nat)
  | retired (lock : Nat)
deriving DecidableEq

namespace Hold

/-- The steps of a lock come one after the other, and anything else may come in between. -/
def allows (hold : Hold) : Effect → Prop
  | .enter _ => hold = nothing
  | .acquire lock => ∃ key, hold = waits key lock
  | .release lock => ∃ key, hold = works key lock
  | .retire key lock => hold = released key lock
  | .leave lock => hold = retired lock
  | _ => True

def next (hold : Hold) : (effect : Effect) → Reply effect → Hold
  | .enter key, lock => waits key lock
  | .acquire _, _ =>
      match hold with
      | waits key lock => works key lock
      | _ => hold
  | .release _, _ =>
      match hold with
      | works key lock => released key lock
      | _ => hold
  | .retire _ lock, _ => retired lock
  | .leave _, _ => nothing
  | _, _ => hold

def handle? : Hold → Option Nat
  | nothing => none
  | waits _ lock | works _ lock | released _ lock | retired lock => some lock

def held? : Hold → Option Nat
  | works _ lock => some lock
  | _ => none

/-- The key and the lock that the program relies on, from taking its handle to dropping the
entry. -/
def entry? : Hold → Option (ActionKey × Nat)
  | waits key lock | works key lock | released key lock => some (key, lock)
  | _ => none

def worksOn (key : ActionKey) : Hold → Bool
  | works name _ => name == key
  | _ => false

theorem eq_works {hold : Hold} {key : ActionKey} (working : hold.worksOn key = true) :
    ∃ lock, hold = works key lock := by
  cases hold with
  | works name lock => exact ⟨lock, by rw [beq_iff_eq.mp working]⟩
  | _ => cases working

theorem handle_of_entry {hold : Hold} {key : ActionKey} {lock : Nat}
    (relies : hold.entry? = some (key, lock)) : hold.handle? = some lock := by
  cases hold with
  | nothing | retired _ => cases relies
  | waits _ _ | works _ _ | released _ _ =>
      cases relies
      rfl

theorem next_of_turnsLocks {hold : Hold} {effect : Effect} (still : turnsLocks effect = false)
    (reply : Reply effect) : hold.next effect reply = hold := by
  cases effect with
  | enter _ | acquire _ | release _ | retire _ _ | leave _ => cases still
  | _ => rfl

end Hold

def Hold.Current (table : LockTable) (hold : Hold) : Prop :=
  ∀ key lock, hold.entry? = some (key, lock) → table.lock? key = some lock

structure Guarded (table : LockTable) (holds : Multiset Hold) : Prop where
  sound : table.Sound
  known : ∀ lock ∈ table.handles, lock < table.next
  handles : ∀ lock, table.handles.count lock = holds.countP fun hold => hold.handle? = some lock
  held : ∀ lock, table.held.count lock = holds.countP fun hold => hold.held? = some lock
  exclusive : table.held.Nodup
  current : ∀ hold ∈ holds, hold.Current table

namespace Guarded

variable {table : LockTable} {key : ActionKey} {lock : Nat} {hold : Hold} {rest : Multiset Hold}

theorem here (guarded : Guarded table (hold ::ₘ rest)) : hold.Current table :=
  guarded.current hold (Multiset.mem_cons_self _ _)

theorem others (guarded : Guarded table (hold ::ₘ rest)) : ∀ other ∈ rest, other.Current table :=
  fun other member => guarded.current other (Multiset.mem_cons_of_mem member)

/-- A program that relies on an entry is the only one that does, if there is no more than one handle
on its lock. -/
theorem apart (guarded : Guarded table (hold ::ₘ rest)) (mine : hold.entry? = some (key, lock))
    (single : table.handles.count lock ≤ 1) {other : Hold} (member : other ∈ rest)
    {name : ActionKey} {number : Nat} (relies : other.entry? = some (name, number)) :
    name ≠ key := by
  rintro rfl
  have same : number = lock := by
    have hers := guarded.others other member name number relies
    have ours := guarded.here name lock mine
    exact Option.some.inj (hers.symm.trans ours)
  subst same
  have counted := guarded.handles number
  have another : 0 < rest.countP fun hold => hold.handle? = some number :=
    Multiset.countP_pos.mpr ⟨other, member, Hold.handle_of_entry relies⟩
  rw [Multiset.countP_cons_of_pos rest (Hold.handle_of_entry mine)] at counted
  omega

theorem enter (guarded : Guarded table (.nothing ::ₘ rest)) (key : ActionKey) :
    Guarded (table.enter key).2 (.waits key (table.enter key).1 ::ₘ rest) := by
  have handles : ∀ lock other, (lock :: table.handles).count other =
      (Hold.waits key lock ::ₘ rest).countP fun hold => hold.handle? = some other := by
    intro lock other
    have before := guarded.handles other
    rw [Multiset.countP_cons] at before ⊢
    simp only [List.count_cons, Hold.handle?, beq_iff_eq, Option.some.injEq, reduceCtorEq,
      ↓reduceIte] at before ⊢
    omega
  have held : ∀ lock other, table.held.count other =
      (Hold.waits key lock ::ₘ rest).countP fun hold => hold.held? = some other := by
    intro lock other
    have before := guarded.held other
    rwa [Multiset.countP_cons] at before ⊢
  unfold LockTable.enter
  split
  · next lock found =>
      have sound : LockTable.Sound { table with handles := lock :: table.handles } :=
        ⟨guarded.sound.keys, guarded.sound.locks, guarded.sound.fresh⟩
      refine ⟨sound, ?_, handles lock, held lock, guarded.exclusive, ?_⟩
      · refine List.forall_mem_cons.mpr ⟨?_, guarded.known⟩
        exact guarded.sound.fresh _ (guarded.sound.lock_iff.mp found)
      · refine Multiset.forall_mem_cons.mpr ⟨?_, guarded.others⟩
        rintro name number ⟨⟩
        exact found
  · next absent =>
      have elsewhere := LockTable.key_ne_of_lock_none absent
      have sound : LockTable.Sound { table with
          next := table.next + 1
          entries := (key, table.next) :: table.entries
          handles := table.next :: table.handles } := by
        refine ⟨?_, ?_, ?_⟩
        · refine List.nodup_cons.mpr ⟨?_, guarded.sound.keys⟩
          intro member
          obtain ⟨entry, inside, same⟩ := List.mem_map.mp member
          exact elsewhere entry inside same
        · refine List.nodup_cons.mpr ⟨?_, guarded.sound.locks⟩
          intro member
          obtain ⟨entry, inside, same⟩ := List.mem_map.mp member
          have below := guarded.sound.fresh entry inside
          dsimp only at same
          omega
        · refine List.forall_mem_cons.mpr ⟨Nat.lt_succ_self _, ?_⟩
          exact fun entry inside => Nat.lt_succ_of_lt (guarded.sound.fresh entry inside)
      refine ⟨sound, ?_, handles _, held _, guarded.exclusive, ?_⟩
      · refine List.forall_mem_cons.mpr ⟨Nat.lt_succ_self _, ?_⟩
        exact fun other member => Nat.lt_succ_of_lt (guarded.known other member)
      · refine Multiset.forall_mem_cons.mpr ⟨?_, ?_⟩
        · rintro name number ⟨⟩
          exact sound.lock_iff.mpr List.mem_cons_self
        · intro other member name number relies
          have before := guarded.others other member name number relies
          rw [guarded.sound.lock_iff] at before
          exact sound.lock_iff.mpr (List.mem_cons_of_mem _ before)

theorem acquire (guarded : Guarded table (.waits key lock ::ₘ rest))
    (free : table.isFree lock = true) :
    Guarded (table.hold lock) (.works key lock ::ₘ rest) := by
  have sound : (table.hold lock).Sound :=
    ⟨guarded.sound.keys, guarded.sound.locks, guarded.sound.fresh⟩
  refine ⟨sound, guarded.known, ?_, ?_, ?_, ?_⟩
  · intro other
    have before := guarded.handles other
    rwa [Multiset.countP_cons] at before ⊢
  · intro other
    have before := guarded.held other
    rw [Multiset.countP_cons] at before ⊢
    simp only [LockTable.hold, List.count_cons, Hold.held?, beq_iff_eq, Option.some.injEq,
      reduceCtorEq, ↓reduceIte] at before ⊢
    omega
  · refine List.nodup_cons.mpr ⟨?_, guarded.exclusive⟩
    simpa [LockTable.isFree] using free
  · exact Multiset.forall_mem_cons.mpr ⟨guarded.here, guarded.others⟩

theorem release (guarded : Guarded table (.works key lock ::ₘ rest)) :
    Guarded (table.release lock) (.released key lock ::ₘ rest) := by
  have sound : (table.release lock).Sound :=
    ⟨guarded.sound.keys, guarded.sound.locks, guarded.sound.fresh⟩
  refine ⟨sound, guarded.known, ?_, ?_, ?_, ?_⟩
  · intro other
    have before := guarded.handles other
    rwa [Multiset.countP_cons] at before ⊢
  · intro other
    have before := guarded.held other
    rw [Multiset.countP_cons] at before ⊢
    simp only [LockTable.release, List.count_erase, Hold.held?, beq_iff_eq, Option.some.injEq,
      reduceCtorEq, ↓reduceIte] at before ⊢
    omega
  · exact guarded.exclusive.erase lock
  · exact Multiset.forall_mem_cons.mpr ⟨guarded.here, guarded.others⟩

theorem retire (guarded : Guarded table (.released key lock ::ₘ rest)) :
    Guarded (table.retire key lock) (.retired lock ::ₘ rest) := by
  have handles : ∀ other, table.handles.count other =
      (Hold.retired lock ::ₘ rest).countP fun hold => hold.handle? = some other := by
    intro other
    have before := guarded.handles other
    rwa [Multiset.countP_cons] at before ⊢
  have held : ∀ other, table.held.count other =
      (Hold.retired lock ::ₘ rest).countP fun hold => hold.held? = some other := by
    intro other
    have before := guarded.held other
    rwa [Multiset.countP_cons] at before ⊢
  have relieved : (Hold.retired lock).Current (table.retire key lock) := by
    rintro name number ⟨⟩
  unfold LockTable.retire at relieved ⊢
  split
  · next few =>
      have single : table.handles.count lock ≤ 1 := by
        have counted := few.2
        unfold LockTable.references at counted
        have listed : 0 < table.entries.countP fun entry => entry.2 == lock :=
          List.countP_pos_iff.mpr ⟨(key, lock), guarded.sound.lock_iff.mp few.1, by simp⟩
        omega
      have fewer : (table.entries.filter fun entry => entry.1 != key).Sublist table.entries :=
        List.filter_sublist
      have sound : LockTable.Sound
          { table with entries := table.entries.filter fun entry => entry.1 != key } :=
        ⟨(fewer.map _).nodup guarded.sound.keys, (fewer.map _).nodup guarded.sound.locks,
          fun entry member => guarded.sound.fresh entry (fewer.mem member)⟩
      refine ⟨sound, guarded.known, handles, held, guarded.exclusive, ?_⟩
      refine Multiset.forall_mem_cons.mpr ⟨by rwa [if_pos few] at relieved, ?_⟩
      intro other member name number relies
      have different := guarded.apart rfl single member relies
      have before := guarded.others other member name number relies
      rw [guarded.sound.lock_iff] at before
      exact sound.lock_iff.mpr (List.mem_filter.mpr ⟨before, by simpa using different⟩)
  · next many =>
      refine ⟨guarded.sound, guarded.known, handles, held, guarded.exclusive, ?_⟩
      exact Multiset.forall_mem_cons.mpr ⟨by rwa [if_neg many] at relieved, guarded.others⟩

theorem leave (guarded : Guarded table (.retired lock ::ₘ rest)) :
    Guarded (table.leave lock) (.nothing ::ₘ rest) := by
  have sound : (table.leave lock).Sound :=
    ⟨guarded.sound.keys, guarded.sound.locks, guarded.sound.fresh⟩
  refine ⟨sound, ?_, ?_, ?_, guarded.exclusive, ?_⟩
  · exact fun other member => guarded.known other (List.mem_of_mem_erase member)
  · intro other
    have before := guarded.handles other
    rw [Multiset.countP_cons] at before ⊢
    simp only [LockTable.leave, List.count_erase, Hold.handle?, beq_iff_eq, Option.some.injEq,
      reduceCtorEq, ↓reduceIte] at before ⊢
    omega
  · intro other
    have before := guarded.held other
    rwa [Multiset.countP_cons] at before ⊢
  · refine Multiset.forall_mem_cons.mpr ⟨?_, guarded.others⟩
    rintro name number ⟨⟩

theorem following {timing : Timing} {before after : Surroundings} {effect : Effect}
    {reply : Reply effect} (guarded : Guarded before.locks (hold ::ₘ rest))
    (allowed : hold.allows effect) (answer : Answers timing before effect reply after) :
    Guarded after.locks (hold.next effect reply ::ₘ rest) := by
  cases turning : turnsLocks effect with
  | false =>
      rw [answer.unchanged.2.2 turning, Hold.next_of_turnsLocks turning]
      exact guarded
  | true =>
      cases effect with
      | acquire lock =>
          obtain ⟨key, rfl⟩ := allowed
          rw [answer.2]
          exact guarded.acquire answer.1
      | enter key =>
          obtain ⟨Outside, channel, clock, outside, outside', _timely, outcome⟩ := answer
          cases outcome
          cases allowed
          exact guarded.enter key
      | release lock =>
          obtain ⟨Outside, channel, clock, outside, outside', _timely, outcome⟩ := answer
          cases outcome
          obtain ⟨key, rfl⟩ := allowed
          exact guarded.release
      | retire key lock =>
          obtain ⟨Outside, channel, clock, outside, outside', _timely, outcome⟩ := answer
          cases outcome
          cases allowed
          exact guarded.retire
      | leave lock =>
          obtain ⟨Outside, channel, clock, outside, outside', _timely, outcome⟩ := answer
          cases outcome
          cases allowed
          exact guarded.leave
      | _ => cases turning

theorem excludes {holds : Multiset Hold} (guarded : Guarded table holds) (key : ActionKey) :
    holds.countP (fun hold => hold.worksOn key = true) ≤ 1 := by
  by_contra many
  have one : 0 < holds.countP fun hold => hold.worksOn key = true := by omega
  obtain ⟨first, member, firstWorks⟩ := Multiset.countP_pos.mp one
  obtain ⟨rest, rfl⟩ := Multiset.exists_cons_of_mem member
  rw [Multiset.countP_cons_of_pos rest firstWorks] at many
  have two : 0 < rest.countP fun hold => hold.worksOn key = true := by omega
  obtain ⟨second, another, secondWorks⟩ := Multiset.countP_pos.mp two
  obtain ⟨lock, rfl⟩ := Hold.eq_works firstWorks
  obtain ⟨number, rfl⟩ := Hold.eq_works secondWorks
  have same : number = lock := by
    have hers := guarded.others _ another key number rfl
    have ours := guarded.here key lock rfl
    exact Option.some.inj (hers.symm.trans ours)
  subst same
  have mine : (Hold.works key number).held? = some number := rfl
  have twice := guarded.held number
  have once := List.nodup_iff_count_le_one.mp guarded.exclusive number
  have more : 0 < rest.countP fun hold => hold.held? = some number :=
    Multiset.countP_pos.mpr ⟨_, another, mine⟩
  rw [Multiset.countP_cons_of_pos rest mine] at twice
  omega

section Idle

variable {holds idle : Multiset Hold}

private theorem countP_idle {seen : Hold → Prop} [DecidablePred seen]
    (all : ∀ hold ∈ idle, hold = .nothing) (unseen : ¬ seen .nothing) : idle.countP seen = 0 := by
  rw [Multiset.countP_eq_zero]
  intro hold member
  rw [all hold member]
  exact unseen

theorem add_idle (all : ∀ hold ∈ idle, hold = .nothing) :
    Guarded table (holds + idle) ↔ Guarded table holds := by
  have noHandle : ∀ lock, idle.countP (fun hold => hold.handle? = some lock) = 0 := fun lock =>
    countP_idle all (by simp [Hold.handle?])
  have noLock : ∀ lock, idle.countP (fun hold => hold.held? = some lock) = 0 := fun lock =>
    countP_idle all (by simp [Hold.held?])
  constructor
  · intro guarded
    refine ⟨guarded.sound, guarded.known, ?_, ?_, guarded.exclusive, ?_⟩
    · intro lock
      rw [guarded.handles, Multiset.countP_add, noHandle, Nat.add_zero]
    · intro lock
      rw [guarded.held, Multiset.countP_add, noLock, Nat.add_zero]
    · exact fun hold member => guarded.current hold (Multiset.mem_add.mpr (.inl member))
  · intro guarded
    refine ⟨guarded.sound, guarded.known, ?_, ?_, guarded.exclusive, ?_⟩
    · intro lock
      rw [guarded.handles, Multiset.countP_add, noHandle, Nat.add_zero]
    · intro lock
      rw [guarded.held, Multiset.countP_add, noLock, Nat.add_zero]
    · intro hold member
      rcases Multiset.mem_add.mp member with here | there
      · exact guarded.current hold here
      · rw [all hold there]
        rintro name number ⟨⟩

theorem of_idle (idle : table.Idle) (all : ∀ hold ∈ holds, hold = .nothing) :
    Guarded table holds := by
  have empty : Guarded table 0 := by
    refine ⟨idle.toSound, ?_, ?_, ?_, ?_, by simp⟩
    · simp [idle.handles]
    · simp [idle.handles]
    · simp [idle.held]
    · simp [idle.held]
  rw [← zero_add holds]
  exact (add_idle all).mpr empty

end Idle

end Guarded

def locking : Protocol Hold where
  begins := fun _ => .nothing
  ends := fun hold => hold = .nothing
  allows := Hold.allows
  next := Hold.next
  permits := fun _ => True

private theorem reply_nonempty (effect : Effect) : Nonempty (Reply effect) := by
  cases effect with
  | probe _ _ _ _ => exact ⟨{ outcome := .timeout, serial := none, attempts := 0 }⟩
  | clearRows _ | storeRow _ _ _ _ | deliver _ => exact ⟨.ok ()⟩
  | readRows _ | findZones _ => exact ⟨.ok []⟩
  | reapRows _ => exact ⟨.ok 0⟩
  | callBackend _ _ _ | askSerial _ _ => exact ⟨none⟩
  | now => exact ⟨(⟨0, 0⟩ : Timestamp)⟩
  | elapsed | enter _ => exact ⟨(0 : Nat)⟩
  | fork _ _ => exact ⟨([] : List Result)⟩
  | awaitTick _ => exact ⟨false⟩
  | _ => exact ⟨()⟩

theorem Hold.determined (program : Program Result) (left right : Hold)
    (one : locking.Keeps program left) (two : locking.Keeps program right) : left = right := by
  induction program generalizing left right with
  | done result => exact (one left rfl).trans (two right rfl).symm
  | perform effect next ih =>
      obtain ⟨⟨mine, -⟩, goesOn⟩ := one left rfl
      obtain ⟨⟨yours, -⟩, alsoGoesOn⟩ := two right rfl
      obtain ⟨reply⟩ := reply_nonempty effect
      have same := ih reply _ _ (goesOn reply _ rfl) (alsoGoesOn reply _ rfl)
      cases effect with
      | acquire lock | release lock =>
          obtain ⟨key, rfl⟩ := mine
          obtain ⟨name, rfl⟩ := yours
          cases same
          rfl
      | enter _ | retire _ _ | leave _ => exact Eq.trans mine (Eq.symm yours)
      | _ => exact same

theorem Guarded.turn {timing : Timing} {now later : Situation} {holds after : Multiset Hold}
    (guarded : Guarded now.surroundings.locks holds)
    (turn : locking.Turn timing now holds later after) :
    Guarded later.surroundings.locks after := by
  have idle : ∀ operations : List Operation,
      ∀ hold ∈ (operations.map locking.begins : Multiset Hold), hold = .nothing := by
    intro operations hold member
    obtain ⟨operation, -, rfl⟩ := List.mem_map.mp (Multiset.mem_coe.mp member)
    rfl
  cases turn with
  | perform single allowed answer =>
      rw [← Multiset.cons_add]
      exact (add_idle (idle _)).mpr (guarded.following allowed answer)
  | fork _allowed =>
      rw [← Multiset.cons_add]
      exact (add_idle (idle _)).mpr guarded
  | join _allowed ended =>
      rw [← Multiset.cons_add] at guarded
      exact (add_idle ended).mp guarded

end Interleaving

end ZonePropagation
