import ZonePropagation.Proofs.Interleaving.Play
import ZonePropagation.Proofs.Propagation.Responses
import ZonePropagation.Proofs.Propagation.Steps
/-!
The law of an attempt that verifies in line.

Whatever targets and nameservers respond, an attempt that works alone ends, delivers one report, and
leaves no rows of the zone's action and all other rows as they were.  Its result is a function of
the responses: it gives up exactly when there are targets and none of them accepts the change, and
otherwise enough nameservers have to confirm it.
-/

namespace ZonePropagation

def Progress.status : Progress → Status
  | .verifying => .pending
  | .decided status => status
  | .backendsFailed => .error

namespace Propagation

open Interleaving

/-- One report has been delivered, with the result, and the rows are those from before without the
rows of the zone's action. -/
structure Closed (zone : Zone) (initial : Surroundings) (rows : Status.Memory) (final : Situation)
    (progress : Progress) : Prop where
  reported : ∃ serial moment, (progress = .backendsFailed → serial = zone.serial) ∧
    final.past.filter (fun event => delivers event.effect) =
      [⟨.deliver ⟨zone.id, progress.status, serial⟩, .ok ()⟩] ∧
    final.surroundings.registry =
      (initial.registry.deliver ⟨zone.id, progress.status, serial⟩ moment).2
  cleared : final.surroundings.status = .memory (rows.clear zone.id zone.action)

/-- How an attempt ends that verifies in line.  It heard some responses, and for whatever responses
these are it gives up if there are targets of which none accepts, and otherwise succeeds if enough
nameservers confirm the change. -/
structure Outcome (budget : Nat) (pool : Pool) (zone : Zone) (initial : Surroundings)
    (rows : Status.Memory) (final : Situation) (progress : Progress) : Prop
    extends Closed zone initial rows final progress where
  heard : ∃ responses : Responses, responses.fit final.past = true
  ended : ∀ responses : Responses, responses.fit final.past = true → progress =
    if pool.targets ≠ [] ∧ responses.accepting pool = false then .backendsFailed
    else .decided (answeredStatus pool fun server =>
      Confirms zone budget (responses.answers server))

section Parts

variable {manager : Manager} {pool : Pool} {zone : Zone} {origin : Status.Memory}
  {account : Account} {now : Situation} {policy : VerificationPolicy}

theorem verify_succeeds (inline : policy.detached = false) (distinct : pool.nameservers.Nodup)
    (holds : account.Holds zone origin now) (accepting : Accepting account.registry zone)
    (empty : account.content = []) (free : account.held = [])
    (unanswered : ∀ server, account.arrived server = false) :
    Succeeds manager (fun later progress => ∃ arrived serial,
        progress = .decided (answeredStatus pool arrived) ∧
          Account.Concluded zone origin { account with arrived } (answeredStatus pool arrived)
            serial later)
      (verify policy pool zone) now := by
  unfold verify
  apply Succeeds.bind (storeRows_succeeds holds pool.nameservers .pending (by simp [empty]))
  rintro pending _ ⟨content, inside, kept⟩
  rw [inline, Bool.false_and, if_neg Bool.false_ne_true]
  apply Succeeds.bind (.lift (verifications_keep kept distinct unanswered inside))
  rintro verified results ⟨stored, content, arrived, settled, -, done⟩
  apply Succeeds.bind (stored_succeeds rfl stored done)
  intro checked _ met
  apply Succeeds.bind (lockedDecide_succeeds met free accepting settled)
  rintro decided verdict ⟨status, serial, concluded⟩
  rw [status] at concluded
  cases verdict with
  | pending _ _ _ => exact absurd status.symm (answeredStatus_ne_pending pool arrived)
  | success _ | error _ =>
      change _ = answeredStatus pool arrived at status
      apply Succeeds.pure
      exact ⟨arrived, serial, congrArg Progress.decided status, concluded⟩

theorem giveUp_succeeds (holds : account.Holds zone origin now)
    (accepting : Accepting account.registry zone) (empty : account.content = []) :
    Succeeds manager (fun later progress => progress = .backendsFailed ∧
        account.Concluded zone origin .error zone.serial later) (giveUp policy pool zone) now := by
  unfold giveUp
  apply Succeeds.bind (storeRows_succeeds holds pool.nameservers .error (by simp [empty]))
  rintro stored _ ⟨content, -, kept⟩
  apply Succeeds.bind (conclude_succeeds kept (accepting .error zone.serial))
  intro later _ concluded
  exact .pure ⟨rfl, concluded⟩

end Parts

section Attempt

variable {manager : Manager} {pool : Pool} {zone : Zone} {initial : Surroundings}
  {rows : Status.Memory}

private def heardProgress (pool : Pool) (zone : Zone) (past : List Event) : Progress :=
  if pool.targets ≠ [] ∧ past.any isAcceptance = false then .backendsFailed
  else .decided (answeredStatus pool fun server => past.any (isArrival zone server))

private theorem closed_of_concluded {account : Account} {progress : Progress} {serial : UInt32}
    {final : Situation} (registry : account.registry = initial.registry)
    (silent : account.reports = [])
    (ended : progress =
      if pool.targets ≠ [] ∧ account.accepted = false then .backendsFailed
      else .decided (answeredStatus pool account.arrived))
    (same : progress = .backendsFailed → serial = zone.serial)
    (concluded : account.Concluded zone rows progress.status serial final) :
    progress = heardProgress pool zone final.past ∧ Closed zone initial rows final progress := by
  obtain ⟨moment, holds⟩ := concluded
  have answered : (fun server => final.past.any (isArrival zone server)) = account.arrived :=
    funext holds.arrived
  have accepted : final.past.any isAcceptance = account.accepted := holds.accepted
  refine ⟨?_, ⟨serial, moment, same, ?_, ?_⟩, ?_⟩
  · unfold heardProgress
    rw [answered, accepted]
    exact ended
  · have reports := holds.reports
    unfold Account.reported at reports
    rwa [silent] at reports
  · have left := holds.registry
    unfold Account.reported at left
    rwa [registry] at left
  · obtain ⟨memory, kept, shows⟩ := holds.rows
    rw [kept, shows.eq_clear]
    rfl

private theorem answeredStatus_congr {arrived other : Nameserver → Bool}
    (same : ∀ server ∈ pool.nameservers, arrived server = other server) :
    answeredStatus pool arrived = answeredStatus pool other := by
  have counted : pool.nameservers.countP arrived = pool.nameservers.countP other :=
    List.countP_congr fun server member => by rw [same server member]
  unfold answeredStatus
  rw [counted]

private theorem heardProgress_eq {budget : Nat} {options : ProbeOptions} {past : List Event}
    {responses : Responses} (fit : responses.fit past = true)
    (called : ∀ target, timesAsked target past = pool.targets.countP (·.id == target))
    (asked : heardProgress pool zone past = .backendsFailed ∨ ∀ server ∈ pool.nameservers,
      ∃ result, Inquiry zone server options budget (questionsTo server past) result) :
    heardProgress pool zone past =
      if pool.targets ≠ [] ∧ responses.accepting pool = false then .backendsFailed
      else .decided (answeredStatus pool fun server =>
        Confirms zone budget (responses.answers server)) := by
  unfold heardProgress at asked ⊢
  rw [Responses.any_isAcceptance fit called] at asked ⊢
  by_cases refused : pool.targets ≠ [] ∧ responses.accepting pool = false
  · rw [if_pos refused, if_pos refused]
  · rw [if_neg refused] at asked ⊢
    rw [if_neg refused]
    apply congrArg Progress.decided
    apply answeredStatus_congr
    intro server member
    rcases asked with gaveUp | asked
    · cases gaveUp
    · obtain ⟨result, inquiry⟩ := asked server member
      exact Responses.any_isArrival fit inquiry

theorem propagate_of_unknown {action : ZoneAction}
    (unknown : manager.topology.get? zone.poolId = none) :
    manager.program (.propagate zone action) =
      .done (.attempted (.error (.poolNotFound zone.poolId))) := by
  have get : manager.topology.get zone.poolId = .error (.poolNotFound zone.poolId) := by
    unfold Topology.get
    rw [unknown]
  change Result.attempted <$> (manager.propagate zone action).run = _
  unfold Manager.propagate Manager.pool
  rw [get]
  rfl

theorem propagate_parts {action : ZoneAction} {goal : Situation → Progress → Prop}
    (known : manager.topology.get? zone.poolId = some pool) (kept : initial.status = .memory rows)
    (free : initial.locks.held = [])
    (gives : ∀ later, pool.targets ≠ [] →
      Account.Holds { zone with action } rows
        { Account.opening { zone with action } initial rows with content := [] } later →
      Succeeds manager goal (giveUp manager.policy pool { zone with action }) later)
    (verifies : ∀ later accepted, (pool.targets = [] ∨ accepted = true) →
      storedResults ⟨zone.id, action⟩ later.past = [] →
      Account.Holds { zone with action } rows
        { Account.opening { zone with action } initial rows with content := [], accepted } later →
      Succeeds manager goal (verify manager.policy pool { zone with action }) later) :
    Succeeds manager goal (manager.propagate zone action) ⟨initial, []⟩ := by
  have opening : (Account.opening { zone with action } initial rows).Holds { zone with action } rows
      ⟨initial, []⟩ := .opening kept free
  unfold Manager.propagate
  apply Succeeds.bind (pool_succeeds known)
  rintro now found ⟨rfl, rfl⟩
  have clearing : Concludes { zone with action } (clearRows ⟨zone.id, action⟩).run := .perform rfl
  apply Succeeds.bind ((clearRows_succeeds opening).spares clearing.sparing)
  rintro empty _ ⟨cleared, none⟩
  apply Succeeds.bind (.lift (solo_spares dispatch_sparing (dispatch_keeps cleared rfl)))
  rintro called accepted ⟨dispatched, noneCalled⟩
  by_cases refused : (accepted = 0 && !pool.targets.isEmpty) = true
  · rw [if_pos refused]
    simp only [Bool.and_eq_true, decide_eq_true_eq, Bool.not_eq_true', List.isEmpty_eq_false_iff]
      at refused
    obtain ⟨rfl, targets⟩ := refused
    exact gives called targets dispatched
  · rw [if_neg refused]
    apply Succeeds.bind
      (.lift (solo_spares announceToOthers_sparing (announceToOthers_keeps dispatched)))
    rintro announced _ ⟨told, noneTold⟩
    refine verifies announced _ ?_ (noneTold.trans (noneCalled.trans none)) told
    by_cases targets : pool.targets = []
    · exact .inl targets
    · right
      simpa [targets] using refused

private theorem propagate_closes {action : ZoneAction}
    (known : manager.topology.get? zone.poolId = some pool) (distinct : pool.nameservers.Nodup)
    (inline : manager.policy.detached = false) (kept : initial.status = .memory rows)
    (accepting : Accepting initial.registry zone) (free : initial.locks.held = []) :
    Succeeds manager (fun final progress =>
        progress = heardProgress pool { zone with action } final.past ∧
          Closed { zone with action } initial rows final progress)
      (manager.propagate zone action) ⟨initial, []⟩ := by
  apply propagate_parts known kept free
  · intro later targets holds
    apply (giveUp_succeeds holds accepting rfl).weaken
    rintro final progress ⟨rfl, concluded⟩
    exact closed_of_concluded rfl rfl (by rw [if_pos ⟨targets, rfl⟩]) (fun _ => rfl) concluded
  · intro later accepted some _ holds
    apply (verify_succeeds inline distinct holds accepting rfl rfl fun _ => rfl).weaken
    rintro final progress ⟨arrived, serial, rfl, concluded⟩
    refine closed_of_concluded rfl rfl ?_ (fun same => nomatch same) concluded
    rw [if_neg]
    rintro ⟨targets, none⟩
    rcases some with empty | rfl
    · exact targets empty
    · cases none

theorem propagate_succeeds {action : ZoneAction}
    (known : manager.topology.get? zone.poolId = some pool) (distinct : pool.nameservers.Nodup)
    (inline : manager.policy.detached = false) (kept : initial.status = .memory rows)
    (accepting : Accepting initial.registry zone) (free : initial.locks.held = []) :
    Succeeds manager
      (Outcome manager.policy.probe.budget pool { zone with action } initial rows)
      (manager.propagate zone action) ⟨initial, []⟩ := by
  apply (solo_leads (propagate_closes known distinct inline kept accepting free)).weaken
  intro final outcome met
  obtain ⟨closes, events, past, -, performs⟩ := met
  cases outcome with
  | error fault => cases closes
  | ok progress =>
      obtain ⟨ended, closed⟩ := closes
      rw [List.append_nil] at past
      obtain ⟨called, asked⟩ := propagate_asks known inline distinct performs
      refine ⟨closed, ⟨_, Responses.fit_heard final.past⟩, ?_⟩
      intro responses fit
      rw [past] at ended fit
      rw [ended] at asked ⊢
      exact heardProgress_eq fit called asked

/-- Every inline attempt that works alone ends, in its outcome.  With an unknown pool it performs
nothing at all. -/
theorem inline_attempt_settles (manager : Manager) (zone : Zone) (action : ZoneAction)
    (initial : Surroundings) :
    (manager.topology.get? zone.poolId = none →
      Strand.Settles manager anytime (fun final result =>
          result = .attempted (.error (.poolNotFound zone.poolId)) ∧ final = ⟨initial, []⟩)
        ⟨initial, []⟩ (.start manager (.propagate zone action))) ∧
    ∀ pool rows, manager.topology.get? zone.poolId = some pool → pool.nameservers.Nodup →
      manager.policy.detached = false → initial.status = .memory rows →
      Accepting initial.registry zone → initial.locks.held = [] →
      Strand.Settles manager unexpired (fun final result => ∃ progress,
          result = .attempted (.ok progress) ∧
            Outcome manager.policy.probe.budget pool { zone with action } initial rows final
              progress)
        ⟨initial, []⟩ (.start manager (.propagate zone action)) := by
  constructor
  · intro unknown
    unfold Strand.start
    rw [propagate_of_unknown unknown]
    exact .done ⟨rfl, rfl⟩
  · intro pool rows known distinct inline kept accepting free
    apply Strand.Settles.of_along
    apply Conduct.Along.bind
      (propagate_succeeds known distinct inline kept accepting free)
    rintro final (fault | progress) met
    · cases met
    · exact .pure fun last unmoved => unmoved ▸ ⟨progress, rfl, met⟩

end Attempt

private def threeServers : Pool where
  id := "p"
  name := "p"
  targets := [{ id := "t", backendType := "fake" }]
  nameservers := [⟨"a", 53⟩, ⟨"b", 53⟩, ⟨"c", 53⟩]
  threshold := 60

private def ofThree : Manager where
  topology := { pools := [threeServers] }
  policy := { probe := ⟨1000, 100, 3⟩ }

private def toUpdate (poolId : String) : Zone where
  id := "z"
  name := "z."
  serial := 10
  action := .none
  status := .active
  poolId := poolId
  updatedAt := ⟨0, 0⟩

private def leftOver : Status.Memory where
  ttl := 3600000
  entries :=
    [⟨⟨"z", .update, ⟨"a", 53⟩, .success, some 12, ⟨0, 0⟩⟩, 3600000⟩,
      ⟨⟨"z", .create, ⟨"a", 53⟩, .pending, none, ⟨0, 0⟩⟩, 3600000⟩]

private def startOf (poolId : String) : Surroundings where
  status := .memory leftOver
  registry := .memory { zones := [toUpdate poolId] }
  backends := { byTarget := [("t", .rehearsal {})] }

private def serves (serial : UInt32) : Probe := { outcome := .ok, serial, attempts := 1 }

/-- The target accepts.  The first nameserver serves the zone at once, the second one lags behind,
and the third one serves the zone when it is asked again. -/
private def twoConfirm : Responses where
  accepts := fun target _ => target == "t"
  answers := fun server question =>
    if server = ⟨"a", 53⟩ ∨ server = ⟨"c", 53⟩ ∧ 0 < question then serves 10 else serves 9

private def hasConfirmed (world : World) : Bool :=
  (match world.strands with
    | [.running (.done (.attempted (.ok (.decided .success))))] => true
    | _ => false) && twoConfirm.fit world.now.past

theorem inline_attempt_settles_three :
    Strand.Settles ofThree anytime (fun final result =>
        result = .attempted (.error (.poolNotFound "q")) ∧ final = ⟨startOf "q", []⟩)
      ⟨startOf "q", []⟩ (.start ofThree (.propagate (toUpdate "q") .update)) ∧
    Strand.Settles ofThree unexpired (fun final result => ∃ progress,
        result = .attempted (.ok progress) ∧
          Outcome 3 threeServers { toUpdate "p" with action := .update } (startOf "p") leftOver
            final progress)
      ⟨startOf "p", []⟩ (.start ofThree (.propagate (toUpdate "p") .update)) ∧
    ∃ world, Relation.ReflTransGen (World.Act ofThree anytime)
        ⟨⟨startOf "p", []⟩, [.start ofThree (.propagate (toUpdate "p") .update)]⟩ world ∧
      hasConfirmed world = true := by
  refine ⟨?_, ?_, ?_⟩
  · exact (inline_attempt_settles ofThree (toUpdate "q") .update (startOf "q")).1 rfl
  · exact (inline_attempt_settles ofThree (toUpdate "p") .update (startOf "p")).2
      threeServers leftOver rfl (by decide) rfl rfl (fun _ _ _ => rfl) rfl
  · have played : ((⟨⟨startOf "p", []⟩,
        [.start ofThree (.propagate (toUpdate "p") .update)]⟩ : World).playFirst
          ofThree (serves 10) 19 >>= fun world => world.playFirst ofThree (serves 9) 19 >>=
            fun world => world.playFirst ofThree (serves 10) 16).any hasConfirmed = true := by
      decide +kernel
    obtain ⟨world, moved, seen⟩ := (Option.any_eq_true _ _).mp played
    obtain ⟨first, begun, moved⟩ := Option.bind_eq_some_iff.mp moved
    obtain ⟨second, lagged, moved⟩ := Option.bind_eq_some_iff.mp moved
    have run := (World.playFirst_acts begun).trans (World.playFirst_acts lagged)
    exact ⟨world, run.trans (World.playFirst_acts moved), seen⟩

end Propagation

end ZonePropagation
