import ZonePropagation.Proofs.Interleaving.Locks
import ZonePropagation.Proofs.Interleaving.Play
/-!
The locks of a manager exclude each other.

All programs of a manager use locks only around work that uses none itself.  So does any caller that
works under the lock of a key.  Hence no two of them ever work on one key, and the lock that a
caller has taken up stays the one with the entry of its key until the caller drops that entry.
-/

namespace ZonePropagation.Propagation

open Interleaving

/-- The effect asks something of the outside, and touches neither rows, reports nor locks. -/
def isQuiet : Effect → Bool
  | .callBackend _ _ _ | .askSerial _ _ | .probe _ _ _ _ | .findZones _ | .measure _ => true
  | .now | .elapsed | .pause _ | .pauseUpTo _ | .awaitTick _ | .stopTimers => true
  | _ => false

abbrev Quiet {α : Type} (program : Program α) : Prop := Only (isQuiet · = true) program

/-- The effect asks a nameserver, or what goes with that. -/
def isAsking : Effect → Bool
  | .probe _ _ _ _ | .measure _ | .pause _ => true
  | _ => false

abbrev Asks {α : Type} (program : Program α) : Prop := Only (isAsking · = true) program

theorem Asks.quiet {α : Type} {program : Program α} (asks : Asks program) : Quiet program := by
  apply Only.weaken asks
  intro effect asking
  cases effect with
  | probe _ _ _ _ | measure _ | pause _ => rfl
  | _ => cases asking

/-- An effect of the poll of a nameserver.  A deletion is not announced. -/
def IsPolling (zone : Zone) (server : Nameserver) : Effect → Prop
  | .probe kind _ asked _ => asked = server ∧ (kind = .announcement → zone.action ≠ .delete)
  | .measure _ | .pause _ => True
  | _ => False

abbrev Polls {α : Type} (zone : Zone) (server : Nameserver) (program : Program α) : Prop :=
  Only (IsPolling zone server) program

theorem Polls.asks {α : Type} {zone : Zone} {server : Nameserver} {program : Program α}
    (polls : Polls zone server program) : Asks program := by
  apply Only.weaken polls
  intro effect polling
  cases effect with
  | probe _ _ _ _ | measure _ | pause _ => rfl
  | _ => cases polling

abbrev LockFree {α : Type} (program : Program α) : Prop := Only (turnsLocks · = false) program

theorem Quiet.lockFree {α : Type} {program : Program α} (quiet : Quiet program) :
    LockFree program := by
  apply Only.weaken quiet
  intro effect silent
  cases effect with
  | enter _ | acquire _ | release _ | retire _ _ | leave _ => cases silent
  | _ => rfl

/-- An effect on the way from the rows of a zone to the end of their verdict. -/
def IsConcluding (zone : Zone) : Effect → Prop
  | .readRows key | .clearRows key => key = zone.key
  | .deliver report => report.zoneId = zone.id
  | .measure _ | .pauseUpTo _ => True
  | _ => False

abbrev Concludes {α : Type} (zone : Zone) (program : Program α) : Prop :=
  Only (IsConcluding zone) program

theorem Concludes.lockFree {α : Type} {zone : Zone} {program : Program α}
    (concludes : Concludes zone program) : LockFree program := by
  apply Only.weaken concludes
  intro effect concluding
  cases effect with
  | enter _ | acquire _ | release _ | retire _ _ | leave _ => cases concluding
  | _ => rfl

theorem locked_only {α : Type} {allowed : Effect → Prop} {key : ActionKey} {work : Program α}
    (turns : ∀ effect, turnsLocks effect = true → allowed effect) (within : Only allowed work) :
    Only allowed (locked key work) := by
  have turned : ∀ effect, turnsLocks effect = true → Only allowed (perform effect) :=
    fun effect turning => .perform (turns effect turning)
  apply (turned (.enter key) rfl).bind
  intro lock
  apply (turned (.acquire lock) rfl).bind
  intro _acquired
  apply within.bind
  intro value
  apply (turned (.release lock) rfl).bind
  intro _released
  apply (turned (.retire key lock) rfl).bind
  intro _retired
  exact (turned (.leave lock) rfl).bind fun _ => .pure value

section QuietPrograms

theorem measure_quiet (thing : Measure) : Quiet (measure thing) := .perform rfl

theorem pool_quiet (manager : Manager) (zone : Zone) : Quiet (manager.pool zone).run := .pure _

theorem measure_asks (thing : Measure) : Asks (measure thing) := .perform rfl

theorem probe_asks (kind : ProbeKind) (zone : Zone) (server : Nameserver)
    (options : ProbeOptions) : Asks (probe kind zone server options) := by
  have asked : Asks (perform (.probe kind zone.name server options)) := .perform rfl
  apply asked.bind
  intro found
  exact (measure_asks _).bind fun _ => .pure found

section PollingPrograms

variable {zone : Zone} {server : Nameserver}

theorem measure_polls (thing : Measure) : Polls zone server (measure thing) := .perform trivial

theorem pause_polls (millis : Nat) : Polls zone server (perform (.pause millis)) :=
  @Only.perform _ (.pause millis) trivial

theorem probe_polls {kind : ProbeKind} (allowed : kind = .announcement → zone.action ≠ .delete)
    (options : ProbeOptions) : Polls zone server (probe kind zone server options) := by
  have asked : Polls zone server (perform (.probe kind zone.name server options)) :=
    .perform ⟨rfl, allowed⟩
  apply asked.bind
  intro found
  exact (measure_polls _).bind fun _ => .pure found

theorem ask_polls (options : ProbeOptions) (further budget : Nat) :
    Polls zone server (ask options zone server further budget) := by
  induction further generalizing budget with
  | zero =>
      unfold ask
      apply (probe_polls (by simp) _).bind
      intro found
      split
      · exact .pure _
      · exact .pure _
      · exact .pure _
  | succ further ih =>
      unfold ask
      apply (probe_polls (by simp) _).bind
      intro found
      split
      · exact .pure _
      · exact .pure _
      · dsimp only
        split
        · exact .pure _
        · next left _ => exact (pause_polls _).bind fun _ => ih (left + 1)

theorem verifyServer_polls (policy : VerificationPolicy) :
    Polls zone server (verifyServer policy zone server) := by
  have polled : Polls zone server (poll policy zone server) := by
    unfold poll
    apply (pause_polls _).bind
    intro _delayed
    split
    · exact ask_polls _ _ _
    · next serving =>
        have announced : Polls zone server
            (discard (probe .announcement zone server policy.probe)) :=
          (probe_polls (fun _ => serving) _).bind fun _ => .pure _
        exact announced.bind fun _ => ask_polls _ _ _
  unfold verifyServer
  apply (measure_polls _).bind
  intro _started
  apply polled.bind
  rintro ⟨status, serial⟩
  exact (measure_polls _).bind fun _ => .pure _

end PollingPrograms

theorem verifyServer_asks (policy : VerificationPolicy) (zone : Zone) (server : Nameserver) :
    Asks (verifyServer policy zone server) :=
  (verifyServer_polls policy).asks

theorem probe_quiet (kind : ProbeKind) (zone : Zone) (server : Nameserver)
    (options : ProbeOptions) : Quiet (probe kind zone server options) :=
  (probe_asks kind zone server options).quiet

theorem verifyServer_quiet (policy : VerificationPolicy) (zone : Zone) (server : Nameserver) :
    Quiet (verifyServer policy zone server) :=
  (verifyServer_asks policy zone server).quiet

theorem change_quiet (target : String) (zone : Zone) : Quiet (change target zone) := by
  unfold change
  have called : Quiet (perform (.callBackend target zone.action.change zone)) := .perform rfl
  apply called.bind
  intro reply
  split
  · exact .pure _
  · exact (measure_quiet _).bind fun _ => .pure _

end QuietPrograms

section ConcludingPrograms

variable {policy : VerificationPolicy} {pool : Pool} {zone : Zone} {status : Status}
  {serial : UInt32}

theorem measure_concludes (thing : Measure) : Concludes zone (measure thing) := .perform trivial

theorem deliver_concludes : Concludes zone (deliver policy zone status serial) := by
  have delivered : ∀ millis left,
      Concludes zone (deliverAgain ⟨zone.id, status, serial⟩ millis left) := by
    intro millis left
    have once : Concludes zone (perform (.deliver ⟨zone.id, status, serial⟩)) := .perform rfl
    induction left generalizing millis with
    | zero => exact once.bind fun _ => .pure _
    | succ left ih =>
        apply once.bind
        intro reply
        have paused : Concludes zone (perform (.pauseUpTo millis)) := .perform trivial
        have again := paused.bind fun _ => ih (nextPause millis)
        split
        · exact .pure _
        · exact .pure _
        · exact again
  unfold deliver
  apply (delivered _ _).bind
  intro accepted
  split
  · exact .pure _
  · exact (measure_concludes _).bind fun _ => .pure _

theorem conclude_concludes : Concludes zone (conclude policy zone status serial).run := by
  unfold conclude
  apply (measure_concludes _).lift.tries
  intro _measured
  apply deliver_concludes.lift.tries
  intro accepted
  split
  · exact .perform rfl
  · exact .pure _

theorem decide_concludes : Concludes zone (decide policy pool zone).run := by
  unfold decide
  have read : Concludes zone (readRows zone.key).run := .perform rfl
  apply read.tries
  intro rows
  dsimp only
  split
  · exact .pure _
  · exact conclude_concludes.tries fun _ => .pure _

end ConcludingPrograms

section LockFreePrograms

variable {policy : VerificationPolicy} {pool : Pool} {zone : Zone}

theorem giveUp_lockFree : LockFree (giveUp policy pool zone).run := by
  unfold giveUp
  have stored : LockFree
      (pool.nameservers.forM fun server => storeRow zone.key server .error none).run :=
    .triesForM fun _ _ => .perform rfl
  exact stored.tries fun _ => conclude_concludes.lockFree.tries fun _ => .pure _

theorem dispatch_lockFree : LockFree (dispatch pool zone) := by
  have called : LockFree (sideBySide (pool.targets.map fun target => .change target.id zone)) :=
    .perform rfl
  exact called.bind fun _ => .pure _

theorem announceToOthers_lockFree : LockFree (announceToOthers pool zone) := by
  unfold announceToOthers
  split
  · exact .pure _
  · have told : LockFree (sideBySide (pool.alsoNotifies.map (.announce zone))) := .perform rfl
    exact told.bind fun _ => .pure _

theorem tick_lockFree (policy : ReconciliationPolicy) (timer : Timer) :
    LockFree (policy.tick timer).run := by
  have batched : ∀ timer work, LockFree (batch timer work) := by
    intro timer work
    have handled : LockFree (perform (.fork batchWidth work)) := .perform rfl
    apply handled.bind
    intro results
    have measured : LockFree (results.forM fun result =>
        measure (.reconciled timer result.isSuccess)) := .forM fun _ _ => .perform rfl
    exact measured.bind fun _ => .pure _
  have found : ∀ criterion, LockFree (findZones criterion).run := fun _ => .perform rfl
  have read : LockFree (perform .now) := .perform rfl
  cases timer with
  | recovery =>
      change LockFree policy.recoverOnce.run
      have candidates : LockFree policy.candidates.run := by
        unfold ReconciliationPolicy.candidates
        apply (found _).tries
        intro failed
        dsimp only
        split
        · exact .pure _
        · exact read.lift.tries fun _ => (found _).tries fun _ => .pure _
      exact candidates.tries fun _ => (batched _ _).lift
  | sync =>
      change LockFree policy.syncOnce.run
      have zones : LockFree policy.syncZones.run :=
        read.lift.tries fun _ => (found _).tries fun _ => .pure _
      have reaped : LockFree (ReconciliationPolicy.reapRows policy.statusTtl) := by
        have asked : LockFree (perform (.reapRows policy.statusTtl)) := .perform rfl
        exact asked.bind fun _ => .pure _
      exact zones.tries fun _ => (batched _ _).lift.tries fun _ =>
        reaped.lift.tries fun _ => .pure _

theorem runTimer_lockFree (policy : ReconciliationPolicy) (timer : Timer) :
    LockFree (runTimer policy timer) := by
  have ticked : ∀ rounds due, LockFree (ticks policy timer rounds due) := by
    intro rounds due
    induction rounds generalizing due with
    | zero => exact .pure _
    | succ rounds ih =>
        unfold ticks
        have woken : LockFree (perform (.awaitTick due)) := .perform rfl
        apply woken.bind
        intro goesOn
        split
        · have read : LockFree (perform .elapsed) := .perform rfl
          apply read.bind
          intro came
          have once : LockFree (discard (policy.tick timer).run) :=
            (tick_lockFree policy timer).bind fun _ => .pure _
          exact once.bind fun _ => ih _
        · exact .pure _
  have started : LockFree (perform .elapsed) := .perform rfl
  exact started.bind fun _ => ticked _ _

end LockFreePrograms

/-- The program ends at the stage where it began, and takes the steps of locks in their order. -/
abbrev Rests {α : Type} (hold : Hold) (program : Program α) : Prop :=
  locking.conduct.Along (fun last _ => last = hold) program hold

namespace Rests

variable {α β : Type} {hold : Hold}

theorem of_lockFree {program : Program α} (free : LockFree program) : Rests hold program := by
  apply Only.along free
  intro effect still
  refine ⟨⟨?_, fun _ _ => trivial⟩, fun reply => Hold.next_of_turnsLocks still reply⟩
  cases effect with
  | enter _ | acquire _ | release _ | retire _ _ | leave _ => cases still
  | _ => trivial

theorem pure (value : α) : Rests hold (Pure.pure value : Program α) := of_lockFree (.pure value)

theorem bind {program : Program α} {follow : α → Program β} (first : Rests hold program)
    (second : ∀ value, Rests hold (follow value)) : Rests hold (program >>= follow) := by
  apply Conduct.Along.bind first
  rintro last value rfl
  exact second value

theorem tries {program : Fallible α} {follow : α → Fallible β} (first : Rests hold program.run)
    (second : ∀ value, Rests hold (follow value).run) : Rests hold (program >>= follow).run := by
  apply first.bind
  rintro (fault | value)
  · exact .pure _
  · exact second value

theorem locked {key : ActionKey} {work : Program α}
    (within : ∀ lock, Rests (.works key lock) work) : Rests .nothing (locked key work) := by
  apply Protocol.locked
  · exact rfl
  · exact fun lock => ⟨key, rfl⟩
  · intro lock
    apply (within lock).weaken
    rintro working value rfl
    exact ⟨⟨key, rfl⟩, rfl, rfl, rfl⟩

end Rests

section Programs

variable {manager : Manager}

theorem record_rests (zone : Zone) (server : Nameserver) (status : Status)
    (serial : Option UInt32) : Rests .nothing (manager.record zone server status serial).run := by
  unfold Manager.record
  apply (Rests.of_lockFree (pool_quiet manager zone).lockFree).tries
  intro pool
  dsimp only
  split
  · exact .pure _
  · apply Rests.locked
    intro lock
    apply Rests.of_lockFree
    have read : LockFree (readRows { zone with action := zone.action.effective }.key).run :=
      .perform rfl
    apply read.tries
    intro rows
    split
    · exact .pure _
    · have stored : LockFree
          (storeRow { zone with action := zone.action.effective }.key server status serial).run :=
        .perform rfl
      exact stored.tries fun _ => decide_concludes.lockFree.tries fun _ => .pure _

theorem verify_rests (policy : VerificationPolicy) (pool : Pool) (zone : Zone) :
    Rests .nothing (verify policy pool zone).run := by
  unfold verify
  have stored : LockFree
      (pool.nameservers.forM fun server => storeRow zone.key server .pending none).run :=
    .triesForM fun _ _ => .perform rfl
  apply (Rests.of_lockFree stored).tries
  intro _stored
  split
  · have handed : LockFree (perform (.detach (pool.nameservers.map (.verifyDetached zone)))) :=
      .perform rfl
    exact (Rests.of_lockFree handed.lift).tries fun _ => Rests.pure _
  · have verified : LockFree (sideBySide (pool.nameservers.map (.verify zone))) := .perform rfl
    apply (Rests.of_lockFree verified.lift).tries
    intro results
    refine Rests.tries (Rests.of_lockFree (Only.triesForIn fun result _member => ?_)) ?_
    · split
      · exact .pure _
      · exact .pure _
    intro _checked
    have decided : Rests .nothing (locked zone.key (decide policy pool zone).run) :=
      Rests.locked fun lock => Rests.of_lockFree decide_concludes.lockFree
    apply decided.tries
    intro verdict
    split
    · exact Rests.pure _
    · exact Rests.pure _

theorem propagate_rests (zone : Zone) (action : ZoneAction) :
    Rests .nothing (manager.propagate zone action).run := by
  unfold Manager.propagate
  apply (Rests.of_lockFree (pool_quiet manager zone).lockFree).tries
  intro pool
  have cleared : LockFree (clearRows { zone with action }.key).run := .perform rfl
  apply (Rests.of_lockFree cleared).tries
  intro _cleared
  apply (Rests.of_lockFree dispatch_lockFree.lift).tries
  intro accepted
  split
  · exact Rests.of_lockFree giveUp_lockFree
  · apply (Rests.of_lockFree announceToOthers_lockFree.lift).tries
    exact fun _ => verify_rests _ _ _

theorem recover_rests (zone : Zone) : Rests .nothing (manager.recover zone).run := by
  unfold Manager.recover
  apply (Rests.of_lockFree (pool_quiet manager zone).lockFree).tries
  intro pool
  have cleared : LockFree (clearRows { zone with action := zone.action.effective }.key).run :=
    .perform rfl
  exact (Rests.of_lockFree cleared).tries fun _ => verify_rests _ _ _

theorem locking_kept (manager : Manager) : locking.Kept manager := by
  rintro operation -
  change Rests .nothing (manager.program operation)
  cases operation with
  | change target zone =>
      exact Rests.of_lockFree ((change_quiet target zone).lockFree.bind fun _ => .pure _)
  | announce zone server =>
      have told : LockFree
          (discard (probe .announcement zone server
            { manager.policy.probe with maxRetries := 1 })) :=
        (probe_quiet _ _ _ _).lockFree.bind fun _ => .pure _
      exact Rests.of_lockFree (told.bind fun _ => .pure _)
  | verify zone server =>
      apply Rests.of_lockFree
      apply (verifyServer_quiet _ _ _).lockFree.bind
      rintro ⟨status, serial⟩
      have stored : LockFree (storeRow zone.key server status serial).run := .perform rfl
      exact stored.bind fun _ => .pure _
  | verifyDetached zone server =>
      apply (Rests.of_lockFree (verifyServer_quiet _ _ _).lockFree).bind
      rintro ⟨status, serial⟩
      exact (record_rests _ _ _ _).bind fun _ => Rests.pure _
  | record zone server status serial =>
      exact (record_rests _ _ _ _).bind fun _ => Rests.pure _
  | propagate zone action => exact (propagate_rests _ _).bind fun _ => Rests.pure _
  | recover zone => exact (recover_rests _).bind fun _ => Rests.pure _
  | timer timer policy =>
      exact Rests.of_lockFree ((runTimer_lockFree _ _).bind fun _ => .pure _)
  | stopAfter millis =>
      have paused : LockFree (perform (.pause millis)) := .perform rfl
      have stopped : LockFree (perform .stopTimers) := .perform rfl
      exact Rests.of_lockFree (paused.bind fun _ => stopped.bind fun _ => .pure _)

end Programs

/-- In every world, the programs in progress are at one stage each.  At most one of them works on a
key, and the lock that a program has taken up for a key is the one with the entry of that key, until
the program drops the entry. -/
theorem locks_exclude {manager : Manager} {may : Operation → Prop} {initial : Surroundings}
    {callers : List (ActionKey × Program Result)} {world : World}
    (idle : initial.locks.Idle) (free : ∀ caller ∈ callers, LockFree caller.2)
    (run : World.Reaches manager may
      ⟨⟨initial, []⟩, callers.map fun caller => .running (locked caller.1 caller.2)⟩ world) :
    (∃ holds, locking.Staged world.strands holds) ∧
      ∀ holds, locking.Staged world.strands holds →
        (∀ key, holds.countP (fun hold => hold.worksOn key = true) ≤ 1) ∧
          ∀ hold ∈ holds, ∀ key lock, hold.entry? = some (key, lock) →
            world.now.surroundings.locks.lock? key = some lock := by
  have begun : locking.Staged (callers.map fun caller => .running (locked caller.1 caller.2))
      (callers.map fun _ => Hold.nothing : List Hold) := by
    clear run
    induction callers with
    | nil => exact .nil
    | cons caller callers ih =>
        have lockFree := free caller (by simp)
        have rests : Rests .nothing (locked caller.1 caller.2) :=
          Rests.locked fun lock => Rests.of_lockFree lockFree
        exact .cons (.running rests) (ih fun other member => free other (by simp [member]))
  have unused : ∀ hold ∈ (callers.map fun _ => Hold.nothing : Multiset Hold), hold = .nothing := by
    intro hold member
    obtain ⟨_, -, rfl⟩ := List.mem_map.mp (Multiset.mem_coe.mp member)
    rfl
  -- Turns keep the locks guarded, and an operation that is called begins without any.
  have turns : ∀ now holds later after, locking.Turn anytime now holds later after →
      Guarded now.surroundings.locks holds → Guarded later.surroundings.locks after :=
    fun _ _ _ _ turn guarded => guarded.turn turn
  have calls : ∀ (now : Situation) (holds : Multiset Hold) (operation : Operation),
      may operation → Guarded now.surroundings.locks holds →
        Guarded now.surroundings.locks (locking.begins operation ::ₘ holds) := by
    intro now holds operation _ guarded
    rw [← Multiset.singleton_add, add_comm]
    exact (Guarded.add_idle (by simp [locking])).mpr guarded
  obtain ⟨holds, staged, guarded⟩ := begun.reaches (locking_kept manager) (fun _ _ => trivial)
    turns calls (fun _ _ _ _ guarded => guarded) (.of_idle idle unused) run
  refine ⟨⟨holds, staged⟩, ?_⟩
  intro others same
  have unique := Protocol.Staged.unique Hold.determined (fun _ _ _ _ => rfl) staged same
  subst unique
  exact ⟨guarded.excludes, guarded.current⟩

private def withoutPools : Manager where
  topology := {}
  policy := { probe := ⟨1000, 100, 3⟩ }

private def unlocked : Surroundings where
  status := .memory { ttl := 1 }
  registry := .memory {}

private def twoCallers : List (ActionKey × Program Result) :=
  List.replicate 2 (⟨"z", .update⟩, do
    let _ ← perform .elapsed
    return .finished true)

private def noAnswer : Probe := { outcome := .timeout, serial := none, attempts := 1 }

/-- The first caller works while the second one waits for it. -/
theorem locks_exclude_two : ∃ world,
    World.Reaches withoutPools (fun _ => False)
      ⟨⟨unlocked, []⟩, twoCallers.map fun caller => .running (locked caller.1 caller.2)⟩ world ∧
    world.now.surroundings.locks.handles = [0, 0] ∧ world.now.surroundings.locks.held = [0] ∧
    (∃ holds, locking.Staged world.strands holds) ∧
      ∀ holds, locking.Staged world.strands holds →
        (∀ key, holds.countP (fun hold => hold.worksOn key = true) ≤ 1) ∧
          ∀ hold ∈ holds, ∀ key lock, hold.entry? = some (key, lock) →
            world.now.surroundings.locks.lock? key = some lock := by
  have played : ((⟨⟨unlocked, []⟩, twoCallers.map fun caller =>
      .running (locked caller.1 caller.2)⟩ : World).playAll withoutPools
      [.act 0 noAnswer, .act 1 noAnswer, .act 0 noAnswer]).any (fun world =>
        world.now.surroundings.locks.handles == [0, 0] &&
          world.now.surroundings.locks.held == [0]) = true := by
    decide +kernel
  obtain ⟨world, moved, seen⟩ := (Option.any_eq_true _ _).mp played
  rw [Bool.and_eq_true, beq_iff_eq, beq_iff_eq] at seen
  have run : World.Reaches withoutPools (fun _ => False) _ world :=
    World.playAll_reaches (by simp) moved
  have idle : unlocked.locks.Idle := ⟨⟨by decide, by decide, by decide⟩, rfl, rfl⟩
  have free : ∀ caller ∈ twoCallers, LockFree caller.2 := by
    intro caller member
    rw [List.eq_of_mem_replicate member]
    exact ⟨rfl, fun _ => trivial⟩
  exact ⟨world, run, seen.1, seen.2, locks_exclude idle free run⟩

end ZonePropagation.Propagation
