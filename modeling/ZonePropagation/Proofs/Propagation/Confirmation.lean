import ZonePropagation.Proofs.Propagation.Callers
/-!
How often a verdict on a key is confirmed.

The lock of a key is held from reading rows to clearing them, so that callers that record results
have no more than one report accepted between them.  An attempt writes rows and gives up without the
lock, and has no more than one report accepted if calls from outside begin after it has returned.
-/

namespace ZonePropagation.Propagation

open Interleaving

def confirmsReport : Event → Bool
  | ⟨.deliver _, .ok ()⟩ => true
  | _ => false

def confirmedReports (past : List Event) : Nat :=
  past.countP confirmsReport

theorem confirmedReports_cons {effect : Effect} (silent : delivers effect = false)
    (reply : Reply effect) (past : List Event) :
    confirmedReports (⟨effect, reply⟩ :: past) = confirmedReports past := by
  apply List.countP_cons_of_neg
  cases effect with
  | deliver _ => cases silent
  | _ => exact Bool.false_ne_true

theorem confirmedReports_accepted (report : Registry.Report) (past : List Event) :
    confirmedReports (⟨.deliver report, .ok ()⟩ :: past) = confirmedReports past + 1 :=
  List.countP_cons_of_pos rfl

theorem confirmedReports_refused (report : Registry.Report) (fault : Fault) (past : List Event) :
    confirmedReports (⟨.deliver report, .error fault⟩ :: past) = confirmedReports past :=
  List.countP_cons_of_neg Bool.false_ne_true

def Vacant (key : ActionKey) (status : Status.Store) : Prop :=
  ∀ clock row rows, status.retrieve clock key ≠ .ok (row :: rows)

section Rows

variable {timing : Timing} {before after : Surroundings} {key : ActionKey}

theorem Vacant.read {row : StatusRecord} {rows : List StatusRecord}
    (vacant : Vacant key before.status) :
    ¬ Answers timing before (.readRows key) (.ok (row :: rows)) after := by
  intro answer
  obtain ⟨-, clock, -, replied⟩ := answer.readRows
  exact vacant clock row rows replied.symm

private theorem memory_retrieve_clear (rows : Status.Memory) (elapsed : Nat) (key : ActionKey) :
    (rows.clear key.zoneId key.action).retrieve elapsed key.zoneId key.action = [] := by
  unfold Status.Memory.retrieve Status.Memory.clear
  rw [List.map_eq_nil_iff, List.filter_eq_nil_iff]
  intro entry member
  have elsewhere := (List.mem_filter.mp member).2
  rw [Bool.not_eq_true'] at elsewhere
  rw [elsewhere]
  exact Bool.false_ne_true

private theorem table_retrieve_clear {rows cleared : Status.Table}
    (done : rows.clear key.zoneId key.action = .ok cleared) :
    cleared.retrieve key.zoneId key.action = .ok [] := by
  unfold Status.Table.clear Status.Table.guard at done
  cases closed : rows.closed with
  | true =>
      rw [closed] at done
      cases done
  | false =>
      rw [closed] at done
      cases done
      have none : Status.Table.rowsFor
          { rows := rows.rows.filter fun row => !row.isFor key.zoneId key.action }
          key.zoneId key.action = [] := by
        simp [Status.Table.rowsFor, List.filter_filter]
      unfold Status.Table.retrieve
      rw [none]
      rfl

private theorem table_retrieve_refused {rows : Status.Table} {fault : Fault}
    (refused : rows.clear key.zoneId key.action = .error fault) :
    rows.retrieve key.zoneId key.action = .error fault := by
  unfold Status.Table.clear at refused
  unfold Status.Table.retrieve
  cases guarded : rows.guard with
  | error other =>
      rw [guarded] at refused
      cases refused
      rfl
  | ok _ =>
      rw [guarded] at refused
      cases refused

/-- Clearing leaves nothing to read: a table that refuses to be cleared refuses to be read too. -/
theorem vacant_clear (key : ActionKey) (status : Status.Store) :
    Vacant key (status.clear key).2 := by
  intro clock row rows read
  cases status with
  | memory memory =>
      have none := memory_retrieve_clear memory clock.elapsed key
      cases none.symm.trans (Except.ok.inj read)
  | table table =>
      cases outcome : table.clear key.zoneId key.action with
      | ok cleared =>
          simp only [Status.Store.clear, outcome, Status.Store.after, Status.Store.retrieve,
            table_retrieve_clear outcome] at read
          cases read
      | error fault =>
          simp only [Status.Store.clear, outcome, Status.Store.after, Status.Store.retrieve,
            table_retrieve_refused outcome] at read
          cases read

theorem vacant_of_clear {reply : Except Fault Unit}
    (answer : Answers timing before (.clearRows key) reply after) : Vacant key after.status := by
  obtain ⟨-, rfl⟩ := answer.clearRows
  exact vacant_clear key before.status

end Rows

theorem started_of_stays {effect : Effect} (stays : ∀ work, effect ≠ .detach work) :
    started effect = [] := by
  cases effect with
  | detach work => exact absurd rfl (stays work)
  | _ => rfl

namespace Caller

variable {key : ActionKey} {caller : Caller} {effect : Effect}

theorem hold_allows (allowed : caller.allows key effect) : caller.hold.allows effect := by
  cases effect with
  | release lock => exact allowed.2
  | enter _ | acquire _ | retire _ _ | leave _ => exact allowed
  | _ => trivial

theorem hold_next (allowed : caller.allows key effect) (reply : Reply effect) :
    (caller.next effect reply).hold = caller.hold.next effect reply := by
  cases effect with
  | detach work => exact allowed.2.2.1.symm
  | readRows _ => rcases reply with fault | ⟨⟩ | ⟨row, rows⟩ <;> rfl
  | deliver _ => rcases reply with fault | ⟨⟩ <;> rfl
  | clearRows _ =>
      change (if caller.standing = .confirmed then _ else caller).hold = caller.hold
      split <;> rfl
  | _ => rfl

theorem alone_next (stays : ∀ work, effect ≠ .detach work) (reply : Reply effect) :
    (caller.next effect reply).alone = caller.alone := by
  cases effect with
  | detach work => exact absurd rfl (stays work)
  | readRows _ => rcases reply with fault | ⟨⟩ | ⟨row, rows⟩ <;> rfl
  | deliver _ => rcases reply with fault | ⟨⟩ <;> rfl
  | clearRows _ =>
      change (if caller.standing = .confirmed then _ else caller).alone = caller.alone
      split <;> rfl
  | _ => rfl

/-- The caller records results: it is past reading rows only while it works under the lock. -/
structure Calm (key : ActionKey) (caller : Caller) : Prop where
  waiting : caller.alone = false
  working : caller.standing ≠ .outside → caller.hold.worksOn key = true

theorem Calm.outsider (key : ActionKey) : Calm key .outsider :=
  ⟨rfl, fun inside => absurd rfl inside⟩

theorem Calm.not_alone (calm : caller.Calm key) : ¬ caller.alone = true := by
  rw [calm.waiting]
  exact Bool.false_ne_true

theorem Calm.stays (calm : caller.Calm key) (allowed : caller.allows key effect) :
    ∀ work, effect ≠ .detach work := by
  rintro work rfl
  exact calm.not_alone allowed.1

theorem Calm.not_forks (calm : caller.Calm key) (width : Nat) (work : List Operation) :
    ¬ caller.allows key (.fork width work) :=
  fun allowed => calm.not_alone allowed.1

theorem Calm.next (calm : caller.Calm key) (allowed : caller.allows key effect)
    (reply : Reply effect) : (caller.next effect reply).Calm key where
  waiting := (alone_next (calm.stays allowed) reply).trans calm.waiting
  working := by
    intro inside
    have waiting := calm.waiting
    rw [hold_next allowed]
    cases effect with
    | readRows read =>
        have told := allowed.2
        rw [waiting] at told
        exact told.2
    | deliver _ | storeRow _ _ _ _ =>
        have entitled : caller.standing = .entitled := allowed
        exact calm.working (by simp [entitled])
    | clearRows _ =>
        rcases allowed.2 with confirmed | ⟨solitary, -⟩
        · exact calm.working (by simp [confirmed])
        · exact absurd solitary calm.not_alone
    | release _ =>
        change (if caller.alone = true then caller.standing else .outside) ≠ .outside at inside
        rw [waiting] at inside
        exact absurd rfl inside
    | fork width work => exact absurd allowed (calm.not_forks width work)
    | detach work => exact absurd rfl (calm.stays allowed work)
    | reapRows _ => cases allowed
    | acquire _ =>
        obtain ⟨lock, works⟩ := Hold.eq_works (calm.working inside)
        obtain ⟨name, step⟩ := hold_allows allowed
        rw [works] at step
        cases step
    | enter _ | retire _ _ | leave _ =>
        obtain ⟨lock, works⟩ := Hold.eq_works (calm.working inside)
        have step := hold_allows allowed
        rw [works] at step
        cases step
    | _ => exact calm.working inside

end Caller

section Turns

variable {key : ActionKey} {timing : Timing} {now later : Situation}
  {callers next : Multiset Caller}

theorem guarded_turn (guarded : Guarded now.surroundings.locks (callers.map Caller.hold))
    (turn : (calling key).Turn timing now callers later next) :
    Guarded later.surroundings.locks (next.map Caller.hold) := by
  apply guarded.turn
  apply turn.map Caller.hold
  · exact fun caller effect allowed => Caller.hold_allows allowed
  · exact fun caller effect reply allowed => Caller.hold_next allowed reply
  · intro operation
    cases operation with
    | _ => rfl
  · exact fun caller ended => ended.1

theorem calm_turn (calm : ∀ caller ∈ callers, caller.Calm key)
    (turn : (calling key).Turn timing now callers later next) :
    ∀ caller ∈ next, caller.Calm key := by
  cases turn with
  | @perform effect reply _ caller rest _ allowed answer =>
      have mine := calm caller (Multiset.mem_cons_self _ _)
      rw [started_of_stays (mine.stays allowed), List.map_nil, Multiset.coe_nil, add_zero]
      exact Multiset.forall_mem_cons.mpr ⟨mine.next allowed reply, fun other member =>
        calm other (Multiset.mem_cons_of_mem member)⟩
  | @fork width work _ _ allowed | @join width work _ _ _ _ allowed _ =>
      exact absurd allowed ((calm _ (Multiset.mem_cons_self _ _)).not_forks width work)

end Turns

/-- No more than one report was accepted.  Once one was, its caller has the rows to clear, or nobody
may report and no rows are left. -/
def ReportedOnce (key : ActionKey) (now : Situation) (callers : Multiset Caller) : Prop :=
  confirmedReports now.past = 0 ∨ confirmedReports now.past = 1 ∧
    ((∃ caller ∈ callers, caller.standing = .confirmed) ∨
      (∀ caller ∈ callers, caller.standing = .outside) ∧ Vacant key now.surroundings.status)

private theorem ReportedOnce.still {key : ActionKey} {now : Situation} {caller moved : Caller}
    {rest : Multiset Caller} {timing : Timing} {effect : Effect} {reply : Reply effect}
    {after : Surroundings} (once : ReportedOnce key now (caller ::ₘ rest))
    (silent : delivers effect = false) (resting : writesRows effect = false)
    (same : moved.standing = caller.standing)
    (answer : Answers timing now.surroundings effect reply after) :
    ReportedOnce key (now.following effect reply after) (moved ::ₘ rest) := by
  unfold ReportedOnce at once ⊢
  unfold Situation.following
  rw [confirmedReports_cons silent, answer.unchanged.1 resting]
  simpa only [Multiset.mem_cons, exists_eq_or_imp, forall_eq_or_imp, same] using once

/-- Callers around a key are in order: one at most is past reading rows under the lock, and no more
than one report was accepted. -/
structure Orderly (key : ActionKey) (now : Situation) (callers : Multiset Caller) : Prop where
  guarded : Guarded now.surroundings.locks (callers.map Caller.hold)
  calm : ∀ caller ∈ callers, caller.Calm key
  once : ReportedOnce key now callers

namespace Orderly

variable {key : ActionKey} {now : Situation} {caller : Caller} {rest : Multiset Caller}
  {timing : Timing} {effect : Effect} {reply : Reply effect} {after : Surroundings}

theorem sole (orderly : Orderly key now (caller ::ₘ rest))
    (works : caller.hold.worksOn key = true) : ∀ other ∈ rest, other.standing = .outside := by
  intro other member
  by_contra inside
  have another := (orderly.calm other (Multiset.mem_cons_of_mem member)).working inside
  have few := orderly.guarded.excludes key
  rw [Multiset.map_cons, Multiset.countP_cons, if_pos works] at few
  have more : 0 < (rest.map Caller.hold).countP fun hold => hold.worksOn key = true :=
    Multiset.countP_pos.mpr ⟨other.hold, Multiset.mem_map_of_mem _ member, another⟩
  omega

/-- While a caller works under the lock and has no rows to clear, no report was accepted unless all
rows are gone. -/
theorem open_or_vacant (orderly : Orderly key now (caller ::ₘ rest))
    (works : caller.hold.worksOn key = true) (unconfirmed : caller.standing ≠ .confirmed) :
    confirmedReports now.past = 0 ∨ caller.standing = .outside ∧
      Vacant key now.surroundings.status := by
  rcases orderly.once with none | ⟨-, ⟨other, member, confirmed⟩ | ⟨outside, vacant⟩⟩
  · exact .inl none
  · rcases Multiset.mem_cons.mp member with rfl | others
    · exact absurd confirmed unconfirmed
    · rw [orderly.sole works other others] at confirmed
      cases confirmed
  · exact .inr ⟨outside caller (Multiset.mem_cons_self _ _), vacant⟩

theorem unreported (orderly : Orderly key now (caller ::ₘ rest))
    (entitled : caller.standing = .entitled) : confirmedReports now.past = 0 := by
  have works := (orderly.calm caller (Multiset.mem_cons_self _ _)).working (by simp [entitled])
  rcases orderly.open_or_vacant works (by simp [entitled]) with none | ⟨outside, -⟩
  · exact none
  · rw [entitled] at outside
    cases outside

private theorem once_next (orderly : Orderly key now (caller ::ₘ rest))
    (allowed : caller.allows key effect)
    (answer : Answers timing now.surroundings effect reply after) :
    ReportedOnce key (now.following effect reply after) (caller.next effect reply ::ₘ rest) := by
  have calm := orderly.calm caller (Multiset.mem_cons_self _ _)
  have once := orderly.once
  unfold ReportedOnce at once ⊢
  unfold Situation.following
  dsimp only
  cases effect with
  | deliver report =>
      have none := orderly.unreported allowed
      rcases reply with fault | ⟨⟩
      · rw [confirmedReports_refused]
        exact .inl none
      · rw [confirmedReports_accepted, none]
        exact .inr ⟨rfl, .inl ⟨_, Multiset.mem_cons_self _ _, rfl⟩⟩
  | storeRow _ _ _ _ =>
      rw [confirmedReports_cons rfl]
      exact .inl (orderly.unreported allowed)
  | clearRows cleared =>
      rw [confirmedReports_cons rfl]
      obtain ⟨rfl, right⟩ := allowed
      have confirmed : caller.standing = .confirmed := by
        rcases right with confirmed | ⟨solitary, -⟩
        · exact confirmed
        · exact absurd solitary calm.not_alone
      have left : (caller.next (.clearRows cleared) reply).standing = .outside := by
        change (if caller.standing = .confirmed then { caller with standing := .outside }
          else caller).standing = .outside
        rw [if_pos confirmed]
      rcases once with none | ⟨one, -⟩
      · exact .inl none
      · refine .inr ⟨one, .inr ⟨?_, vacant_of_clear answer⟩⟩
        exact Multiset.forall_mem_cons.mpr ⟨left, orderly.sole (calm.working (by simp [confirmed]))⟩
  | readRows read =>
      obtain ⟨rfl, right⟩ := allowed
      rw [calm.waiting] at right
      obtain ⟨unconfirmed, works⟩ : caller.standing ≠ .confirmed ∧
        caller.hold.worksOn read = true := right
      rcases reply with fault | ⟨⟩ | ⟨row, rows⟩
      · exact orderly.once.still rfl rfl rfl answer
      · exact orderly.once.still rfl rfl rfl answer
      · rw [confirmedReports_cons rfl]
        rcases orderly.open_or_vacant works unconfirmed with none | ⟨-, vacant⟩
        · exact .inl none
        · exact absurd answer vacant.read
  | release lock =>
      rw [confirmedReports_cons rfl, answer.unchanged.1 rfl]
      rcases once with none | ⟨one, ⟨other, member, confirmed⟩ | ⟨outside, vacant⟩⟩
      · exact .inl none
      · rcases Multiset.mem_cons.mp member with rfl | others
        · exact absurd confirmed allowed.1
        · exact .inr ⟨one, .inl ⟨other, Multiset.mem_cons_of_mem others, confirmed⟩⟩
      · refine .inr ⟨one, .inr ⟨Multiset.forall_mem_cons.mpr ⟨?_, ?_⟩, vacant⟩⟩
        · change (if caller.alone = true then caller.standing else .outside) = .outside
          rw [calm.waiting]
          rfl
        · exact fun other member => outside other (Multiset.mem_cons_of_mem member)
  | detach _ | fork _ _ => exact absurd allowed.1 calm.not_alone
  | reapRows _ => cases allowed
  | _ => exact orderly.once.still rfl rfl rfl answer

theorem add_outsiders {callers : Multiset Caller} (orderly : Orderly key now callers)
    (outsiders : Multiset Caller) (all : ∀ other ∈ outsiders, other = .outsider) :
    Orderly key now (callers + outsiders) := by
  have member : ∀ {goal : Caller → Prop}, (∀ caller ∈ callers, goal caller) → goal .outsider →
      ∀ caller ∈ callers + outsiders, goal caller := by
    intro goal here there caller member
    rcases Multiset.mem_add.mp member with earlier | new
    · exact here caller earlier
    · rw [all caller new]
      exact there
  have idle : ∀ hold ∈ outsiders.map Caller.hold, hold = .nothing := by
    intro hold inside
    obtain ⟨other, new, rfl⟩ := Multiset.mem_map.mp inside
    rw [all other new]
    rfl
  refine ⟨?_, member orderly.calm (.outsider key), ?_⟩
  · rw [Multiset.map_add]
    exact (Guarded.add_idle idle).mpr orderly.guarded
  · rcases orderly.once with none | ⟨one, ⟨caller, here, confirmed⟩ | ⟨outside, vacant⟩⟩
    · exact .inl none
    · exact .inr ⟨one, .inl ⟨caller, Multiset.mem_add.mpr (.inl here), confirmed⟩⟩
    · exact .inr ⟨one, .inr ⟨member outside rfl, vacant⟩⟩

theorem turn {callers next : Multiset Caller} {later : Situation}
    (orderly : Orderly key now callers)
    (turn : (calling key).Turn timing now callers later next) : Orderly key later next where
  guarded := guarded_turn orderly.guarded turn
  calm := calm_turn orderly.calm turn
  once := by
    have calm := orderly.calm
    cases turn with
    | @perform effect reply _ caller _ _ allowed answer =>
        have mine := calm caller (Multiset.mem_cons_self _ _)
        rw [started_of_stays (mine.stays allowed), List.map_nil, Multiset.coe_nil, add_zero]
        exact orderly.once_next allowed answer
    | @fork width work _ _ allowed | @join width work _ _ _ _ allowed _ =>
        exact absurd allowed ((calm _ (Multiset.mem_cons_self _ _)).not_forks width work)

theorem registered {surroundings : Surroundings} {past : List Event} {registry : Registry.Store}
    {callers : Multiset Caller} (orderly : Orderly key ⟨surroundings, past⟩ callers) :
    Orderly key ⟨{ surroundings with registry }, past⟩ callers :=
  ⟨orderly.guarded, orderly.calm, orderly.once⟩

theorem confirmed_once {callers : Multiset Caller} (orderly : Orderly key now callers) :
    confirmedReports now.past ≤ 1 := by
  rcases orderly.once with none | ⟨one, -⟩
  · omega
  · omega

end Orderly

/-- How many reports were accepted by the standing of an attempt that works alone. -/
def Counted (key : ActionKey) (now : Situation) : Standing → Prop
  | .entitled => confirmedReports now.past = 0
  | .confirmed => confirmedReports now.past = 1
  | .outside => confirmedReports now.past = 1 ∧ Vacant key now.surroundings.status

structure Solitary (key : ActionKey) (now : Situation) (caller : Caller) : Prop where
  alone : caller.alone = true
  guarded : Guarded now.surroundings.locks {caller.hold}
  counted : Counted key now caller.standing

namespace Solitary

variable {key : ActionKey} {now : Situation} {caller : Caller} {timing : Timing} {effect : Effect}
  {reply : Reply effect} {after : Surroundings}

private theorem counted_next (solitary : Solitary key now caller)
    (allowed : caller.allows key effect) (stays : ∀ work, effect ≠ .detach work)
    (answer : Answers timing now.surroundings effect reply after) :
    Counted key (now.following effect reply after) (caller.next effect reply).standing := by
  have alone := solitary.alone
  have counted := solitary.counted
  have still : delivers effect = false → writesRows effect = false →
      (caller.next effect reply).standing = caller.standing →
        Counted key (now.following effect reply after) (caller.next effect reply).standing := by
    intro silent resting same
    rw [same]
    unfold Counted Situation.following at *
    rwa [confirmedReports_cons silent, answer.unchanged.1 resting]
  cases effect with
  | deliver report =>
      have entitled : caller.standing = .entitled := allowed
      rw [entitled] at counted
      have none : confirmedReports now.past = 0 := counted
      rcases reply with fault | ⟨⟩
      · change Counted key _ caller.standing
        rw [entitled]
        exact (confirmedReports_refused report fault now.past).trans none
      · exact (confirmedReports_accepted report now.past).trans (congrArg (· + 1) none)
  | storeRow other server status serial =>
      have entitled : caller.standing = .entitled := allowed
      rw [entitled] at counted
      change Counted key _ caller.standing
      rw [entitled]
      exact (confirmedReports_cons rfl reply now.past).trans counted
  | clearRows cleared =>
      obtain ⟨rfl, right⟩ := allowed
      change Counted cleared _ (if caller.standing = .confirmed then
        { caller with standing := .outside } else caller).standing
      rcases right with confirmed | ⟨-, entitled⟩
      · rw [if_pos confirmed]
        rw [confirmed] at counted
        exact ⟨(confirmedReports_cons rfl reply now.past).trans counted,
          vacant_of_clear answer⟩
      · rw [if_neg (by simp [entitled]), entitled]
        rw [entitled] at counted
        exact (confirmedReports_cons rfl reply now.past).trans counted
  | readRows read =>
      obtain ⟨-, right⟩ := allowed
      rw [alone] at right
      have entitled : caller.standing = .entitled := right
      apply still rfl rfl
      rcases reply with fault | ⟨⟩ | ⟨row, rows⟩
      · rfl
      · rfl
      · exact entitled.symm
  | release lock =>
      apply still rfl rfl
      change (if caller.alone = true then caller.standing else .outside) = caller.standing
      rw [if_pos alone]
  | detach work => exact absurd rfl (stays work)
  | reapRows _ => cases allowed
  | _ => exact still rfl rfl rfl

theorem following (solitary : Solitary key now caller) (allowed : caller.allows key effect)
    (stays : ∀ work, effect ≠ .detach work)
    (answer : Answers timing now.surroundings effect reply after) :
    Solitary key (now.following effect reply after) (caller.next effect reply) where
  alone := (Caller.alone_next stays reply).trans solitary.alone
  guarded := by
    rw [Caller.hold_next allowed]
    exact solitary.guarded.following (Caller.hold_allows allowed) answer
  counted := solitary.counted_next allowed stays answer

theorem unmoved (solitary : Solitary key now caller) (silent : delivers effect = false)
    (resting : writesRows effect = false) (still : turnsLocks effect = false)
    (answer : Answers timing now.surroundings effect reply after) :
    Solitary key (now.following effect reply after) caller where
  alone := solitary.alone
  guarded := by
    have same := answer.unchanged.2.2 still
    unfold Situation.following
    rw [same]
    exact solitary.guarded
  counted := by
    have counted := solitary.counted
    unfold Counted Situation.following at *
    rwa [confirmedReports_cons silent, answer.unchanged.1 resting]

theorem orderly (solitary : Solitary key now caller) (ended : (calling key).ends caller) :
    Orderly key now {.outsider} := by
  obtain ⟨free, unconfirmed⟩ := ended
  have guarded := solitary.guarded
  have counted := solitary.counted
  rw [free] at guarded
  have single : ∀ {goal : Caller → Prop}, goal .outsider →
      ∀ other ∈ ({.outsider} : Multiset Caller), goal other := by
    intro goal met other member
    rw [Multiset.mem_singleton.mp member]
    exact met
  refine ⟨guarded, single (.outsider key), ?_⟩
  cases standing : caller.standing with
  | entitled =>
      rw [standing] at counted
      exact .inl counted
  | confirmed => exact absurd standing unconfirmed
  | outside =>
      rw [standing] at counted
      exact .inr ⟨counted.1, .inr ⟨single rfl, counted.2⟩⟩

end Solitary

/-- An attempt in progress, while nothing else is but the work that it waits for. -/
inductive Attempting (key : ActionKey) (now : Situation) : Strand → Prop
  | running {task : Program Result} {caller : Caller} (keeps : (calling key).Keeps task caller)
      (solitary : Solitary key now caller) : Attempting key now (.running task)
  | waiting {width : Nat} {work : List Operation} {strands : List Strand}
      {next : List Result → Program Result} {caller : Caller}
      (helpers : ∀ strand ∈ strands, ∃ task, strand = .running task ∧ Only isHelpful task)
      (entitled : caller.standing = .entitled)
      (goesOn : ∀ results, (calling key).Keeps (next results) caller)
      (solitary : Solitary key now caller) : Attempting key now (.waiting width work strands next)

theorem Attempting.registered {key : ActionKey} {surroundings : Surroundings} {past : List Event}
    {registry : Registry.Store} {strand : Strand}
    (attempting : Attempting key ⟨surroundings, past⟩ strand) :
    Attempting key ⟨{ surroundings with registry }, past⟩ strand := by
  cases attempting with
  | running keeps solitary =>
      exact .running keeps ⟨solitary.alone, solitary.guarded, solitary.counted⟩
  | waiting helpers entitled goesOn solitary =>
      exact .waiting helpers entitled goesOn ⟨solitary.alone, solitary.guarded, solitary.counted⟩

section Attempt

variable {manager : Manager} {key : ActionKey} {timing : Timing}

private theorem helper_step {now later : Situation} {task : Program Result} {moved : Strand}
    {operations : List Operation} {caller : Caller}
    (step : Strand.Step manager timing now (.running task) later moved operations)
    (helpful : Only isHelpful task) (entitled : caller.standing = .entitled)
    (solitary : Solitary key now caller) :
    operations = [] ∧ (∃ rest, moved = .running rest ∧ Only isHelpful rest) ∧
      Solitary key later caller := by
  cases step with
  | @perform effect next reply after single answer =>
      obtain ⟨useful, goesOn⟩ := helpful
      rcases useful with quiet | ⟨other, server, status, serial, rfl⟩
      · have stays : ∀ work, effect ≠ .detach work := by
          rintro work rfl
          cases quiet
        have kept := solitary.following (Caller.allows_of_quiet quiet) stays answer
        rw [Caller.next_of_quiet quiet] at kept
        exact ⟨started_of_stays stays, ⟨_, rfl, goesOn reply⟩, kept⟩
      · have may : caller.allows key (.storeRow other server status serial) := entitled
        have kept := solitary.following may (fun _ => Effect.noConfusion) answer
        exact ⟨rfl, ⟨_, rfl, goesOn reply⟩, kept⟩
  | fork =>
      rcases helpful.1 with quiet | ⟨_, _, _, _, same⟩
      · cases quiet
      · cases same

theorem Attempting.step {now later : Situation} {strand moved : Strand}
    {operations : List Operation}
    (step : Strand.Step manager timing now strand later moved operations)
    (attempting : Attempting key now strand) :
    operations = [] ∧ Attempting key later moved ∨
      (∀ operation ∈ operations, Records key operation) ∧ (calling key).At moved {.outsider} ∧
        Orderly key later {.outsider} := by
  cases attempting with
  | @running task caller keeps solitary =>
      cases step with
      | @perform effect next reply after single answer =>
          obtain ⟨⟨allowed, permitted⟩, goesOn⟩ := keeps caller rfl
          have may : caller.allows key effect := allowed
          by_cases detaching : ∃ work, effect = .detach work
          · obtain ⟨work, rfl⟩ := detaching
            have kept := solitary.unmoved rfl rfl rfl answer
            obtain ⟨-, entitled, free, recording⟩ := may
            refine .inr ⟨recording, .running (goesOn reply _ rfl), kept.orderly ⟨free, ?_⟩⟩
            rw [entitled]
            exact Standing.noConfusion
          · have stays : ∀ work, effect ≠ .detach work := fun work same => detaching ⟨work, same⟩
            exact .inl ⟨started_of_stays stays,
              .running (goesOn reply _ rfl) (solitary.following may stays answer)⟩
      | @fork width work next =>
          obtain ⟨⟨allowed, permitted⟩, goesOn⟩ := keeps caller rfl
          refine .inl ⟨rfl, .waiting ?_ allowed.2.1 (fun results => goesOn results _ rfl) solitary⟩
          intro strand member
          obtain ⟨operation, handed, rfl⟩ := List.mem_map.mp member
          exact ⟨_, rfl, helps_only (allowed.2.2 operation handed)⟩
  | @waiting width work strands next caller helpers entitled goesOn solitary =>
      cases step with
      | @inner _ _ _ before behind strand moved _ _ inner =>
          obtain ⟨task, rfl, helpful⟩ := helpers strand (by simp)
          obtain ⟨none, ⟨rest, rfl, stillHelpful⟩, kept⟩ :=
            helper_step inner helpful entitled solitary
          refine .inl ⟨none, .waiting ?_ entitled goesOn kept⟩
          intro other member
          rcases List.mem_append.mp member with inBefore | inRest
          · exact helpers other (by simp [inBefore])
          · rcases List.mem_cons.mp inRest with rfl | inBehind
            · exact ⟨rest, rfl, stillHelpful⟩
            · exact helpers other (by simp [inBehind])
      | @join _ _ results _ =>
          have joined : Answers timing now.surroundings (.fork width work) results
              now.surroundings := rfl
          exact .inl ⟨rfl, .running (goesOn results) (solitary.unmoved rfl rfl rfl joined)⟩

end Attempt

end ZonePropagation.Propagation
