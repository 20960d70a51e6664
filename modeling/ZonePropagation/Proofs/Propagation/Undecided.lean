import ZonePropagation.Proofs.Propagation.Inline
import ZonePropagation.Settings.Policy
import ZonePropagation.Settings.Topology
/-!
When an inline call ends without a verdict.

A pool counts its nameservers as they are listed, and rows are kept by nameserver.  A nameserver
that is listed more than once has one row, so that after all of them were polled the pool still
waits for as many results as there are repetitions.
-/

namespace ZonePropagation

def Pool.repetitions (pool : Pool) : Nat :=
  pool.nameservers.length - pool.nameservers.dedup.length

theorem Pool.repetitions_of_nodup {pool : Pool} (distinct : pool.nameservers.Nodup) :
    pool.repetitions = 0 := by
  unfold Pool.repetitions
  rw [List.dedup_eq_self.mpr distinct, Nat.sub_self]

namespace Propagation

open Interleaving Status.Memory

section Steps

variable {manager : Manager} {pool : Pool} {zone : Zone} {origin : Status.Memory}
  {account : Account} {now : Situation} {policy : VerificationPolicy} {status : Status}
  {serial : UInt32}

theorem deliver_holds (holds : account.Holds zone origin now) :
    (solo manager unexpired).Along (fun later _ => ∃ registry reports,
        Account.Holds zone origin { account with registry, reports } later)
      (deliver policy zone status serial) now := by
  apply Conduct.Along.deliver fun later => ∃ registry reports,
    Account.Holds zone origin { account with registry, reports } later
  · rintro now ⟨registry, reports, holds⟩
    apply solo_performs_plain rfl
    intro reply left answer
    obtain ⟨moment, -, delivered⟩ := holds.delivered answer
    exact ⟨_, _, delivered⟩
  · rintro millis now ⟨registry, reports, holds⟩
    apply solo_performs_plain rfl
    intro reply left answer
    exact ⟨registry, reports, holds.following_aside answer ⟨rfl, rfl, rfl, fun _ _ => rfl⟩ rfl⟩
  · rintro now ⟨registry, reports, holds⟩
    exact (measure_keeps holds _).weaken fun last _ held => ⟨registry, reports, held⟩
  · rintro now later accepted rfl held
    exact held
  · exact ⟨account.registry, account.reports, holds⟩

theorem conclude_holds (holds : account.Holds zone origin now) :
    Succeeds manager (fun later _ => ∃ content registry reports,
        Account.Holds zone origin { account with content, registry, reports } later)
      (conclude policy zone status serial) now := by
  unfold conclude
  apply Succeeds.bind (.lift (measure_keeps holds _))
  intro later _ kept
  apply Succeeds.bind (.lift (deliver_holds kept))
  rintro last accepted ⟨registry, reports, delivered⟩
  cases accepted with
  | true =>
      apply (clearRows_succeeds delivered).weaken
      exact fun final _ cleared => ⟨[], registry, reports, cleared⟩
  | false => exact Succeeds.pure ⟨account.content, registry, reports, delivered⟩

structure Evaluated (pool : Pool) (zone : Zone) (before : Account) (past : List Event)
    (verdict : Verdict) (after : Account) (rows : List StatusRecord) : Prop where
  read : ⟨.readRows zone.key, .ok rows⟩ ∈ past
  shows : rows.map shown = before.content
  same : verdict = pool.verdict zone.serial rows
  accepted : after.accepted = before.accepted
  arrived : after.arrived = before.arrived
  kept : verdict.status = .pending → after.content = before.content ∧ after.reports = before.reports

theorem decide_holds (holds : account.Holds zone origin now) :
    Succeeds manager (fun later verdict => ∃ after rows,
        Evaluated pool zone account later.past verdict after rows ∧
          Account.Holds zone origin { after with held := account.held } later)
      (decide policy pool zone) now := by
  apply (decide_parts holds fun status serial between kept => conclude_holds kept).weaken
  rintro later verdict ⟨rows, performed, shows, rfl, unreported, reported⟩
  cases report : (pool.verdict zone.serial rows).report? with
  | none =>
      exact ⟨account, rows, ⟨performed, shows, rfl, rfl, rfl, fun _ => ⟨rfl, rfl⟩⟩,
        unreported report⟩
  | some result =>
      have final : (pool.verdict zone.serial rows).status ≠ .pending := by
        intro pending
        rw [Verdict.report_eq_none_iff.mpr pending] at report
        cases report
      obtain ⟨content, registry, reports, concluded⟩ := reported result.1 result.2 report
      exact ⟨{ account with content, registry, reports }, rows,
        ⟨performed, shows, rfl, rfl, rfl, fun pending => absurd pending final⟩, concluded⟩

theorem lockedDecide_holds (holds : account.Holds zone origin now) (free : account.held = []) :
    Succeeds manager (fun later verdict => ∃ after rows,
        Evaluated pool zone account later.past verdict after rows ∧ after.Holds zone origin later)
      (ExceptT.mk (locked zone.key (decide policy pool zone).run)) now := by
  apply Conduct.Along.weaken (locked_holds (fun past outcome after => ∃ verdict rows,
    outcome = .ok verdict ∧ Evaluated pool zone account past verdict after rows) ?_ holds free ?_)
  · rintro later outcome ⟨after, ⟨verdict, rows, rfl, evaluated⟩, kept⟩
    exact ⟨{ after with held := [] }, rows, { evaluated with }, kept⟩
  · rintro past further outcome after longer ⟨verdict, rows, rfl, evaluated⟩
    exact ⟨verdict, rows, rfl, { evaluated with read := longer.mem evaluated.read }⟩
  · intro lock later held
    apply Conduct.Along.weaken (decide_holds held)
    rintro last (fault | verdict) met
    · cases met
    · obtain ⟨after, rows, evaluated, kept⟩ := met
      exact ⟨after, ⟨verdict, rows, rfl, { evaluated with }⟩, kept⟩

/-- The rows that a verdict was on: one for each nameserver of the pool, with a result that the
nameserver has given. -/
structure Polling (pool : Pool) (zone : Zone) (past : List Event) (rows : List StatusRecord) :
    Prop where
  read : ⟨.readRows zone.key, .ok rows⟩ ∈ past
  servers : (rows.map StatusRecord.nameserver).Perm pool.nameservers.dedup
  settled : ∀ row ∈ rows, row.status ≠ .pending
  answered : ∀ row ∈ rows, row.status = .success →
    past.any (isArrival zone row.nameserver) = true

structure Ending (pool : Pool) (zone : Zone) (final : Situation) (progress : Progress)
    (rows : List StatusRecord) : Prop where
  polled : Polling pool zone final.past rows
  undecided : progress = .verifying ↔ successes rows < pool.required ∧
    pool.required ≤ successes rows + pool.repetitions
  decided : ∀ status, progress = .decided status →
    status = if pool.required ≤ successes rows then .success else .error
  left : progress = .verifying →
    final.past.filter (fun event => delivers event.effect) = [] ∧
      ∃ memory, final.surroundings.status = .memory memory ∧
        memory.content zone.key = rows.map shown

private theorem Ending.of_evaluated {before after : Account} {final : Situation} {verdict : Verdict}
    {progress : Progress} {rows : List StatusRecord}
    (tallied : Tallied pool zone before.content before.arrived)
    (evaluated : Evaluated pool zone before final.past verdict after rows)
    (silent : before.reports = []) (holds : after.Holds zone origin final)
    (open_iff : progress = .verifying ↔ verdict.status = .pending)
    (final_of : ∀ status, progress = .decided status →
      status = verdict.status ∧ status ≠ .pending) :
    Ending pool zone final progress rows := by
  obtain ⟨read, shows, rfl, -, arrived, kept⟩ := evaluated
  rw [← shows] at tallied
  have servers : (rows.map StatusRecord.nameserver).Perm pool.nameservers.dedup := by
    have servers := tallied.servers
    rwa [List.map_map] at servers
  have told : ∀ row ∈ rows, Told zone before.arrived (shown row) := fun row member =>
    tallied.told (shown row) (List.mem_map_of_mem member)
  have verdict := verdict_of_results
    (fun row member => List.mem_dedup.mp (servers.mem_iff.mp (List.mem_map_of_mem member)))
    (fun row member => (told row member).settled) fun row member => (told row member).confirms
  have complete : pool.nameservers.length - rows.length = pool.repetitions := by
    unfold Pool.repetitions
    rw [← servers.length_eq, List.length_map]
  rw [complete] at verdict
  refine ⟨⟨read, servers, fun row member => (told row member).settled, ?_⟩, ?_, ?_, ?_⟩
  · intro row member success
    rw [holds.arrived, arrived]
    exact (told row member).arrived success
  · rw [open_iff, verdict]
    split
    · simp; omega
    · split
      · simp; omega
      · simp; omega
  · intro status decided
    obtain ⟨rfl, settled⟩ := final_of status decided
    rw [verdict] at settled ⊢
    split
    · rfl
    · next few =>
        rw [if_neg few] at settled
        split
        · rfl
        · next hopeful =>
            rw [if_neg hopeful] at settled
            exact absurd rfl settled
  · intro verifying
    obtain ⟨content, reports⟩ := kept (open_iff.mp verifying)
    obtain ⟨memory, stays, showing⟩ := holds.rows
    refine ⟨holds.reports.trans (reports.trans silent), memory, stays, ?_⟩
    rw [showing.content, content, shows]

theorem verify_ends (inline : policy.detached = false) (holds : account.Holds zone origin now)
    (empty : account.content = []) (free : account.held = []) (silent : account.reports = [])
    (unanswered : ∀ server, account.arrived server = false) :
    Succeeds manager (fun later progress => ∃ rows, Ending pool zone later progress rows)
      (verify policy pool zone) now := by
  unfold verify
  apply Succeeds.bind (storeRows_succeeds holds pool.nameservers .pending (by simp [empty]))
  rintro pending _ ⟨content, inside, kept⟩
  rw [inline, Bool.false_and, if_neg Bool.false_ne_true]
  apply Succeeds.bind (.lift (verifications_hold kept unanswered))
  rintro polled results ⟨stored, shares, events, sameWork, verified, permuted, -, done⟩
  have tallied := tallied_of_shares sameWork verified permuted inside
  apply Succeeds.bind (stored_succeeds rfl stored done)
  intro checked _ met
  apply Succeeds.bind (lockedDecide_holds met free)
  rintro final verdict ⟨after, rows, evaluated, held⟩
  cases verdict with
  | pending _ _ _ =>
      apply Succeeds.pure
      refine ⟨rows, .of_evaluated tallied evaluated silent held ?_ ?_⟩
      · exact ⟨fun _ => rfl, fun _ => rfl⟩
      · intro status decided
        cases decided
  | success _ | error _ =>
      apply Succeeds.pure
      refine ⟨rows, .of_evaluated tallied evaluated silent held ?_ ?_⟩
      · constructor
        · intro verifying
          cases verifying
        · intro pending
          cases pending
      · intro status decided
        cases decided
        exact ⟨rfl, fun same => nomatch same⟩

theorem giveUp_holds (holds : account.Holds zone origin now) (empty : account.content = []) :
    Succeeds manager (fun later progress => progress = .backendsFailed ∧
        later.past.any isAcceptance = account.accepted) (giveUp policy pool zone) now := by
  unfold giveUp
  apply Succeeds.bind (storeRows_succeeds holds pool.nameservers .error (by simp [empty]))
  rintro stored _ ⟨content, -, kept⟩
  apply Succeeds.bind (conclude_holds kept)
  rintro later _ ⟨content, registry, reports, concluded⟩
  exact .pure ⟨rfl, concluded.accepted⟩

end Steps

/-- How an inline call ends: it gives up when there are targets of which none accepted the change,
and has polled all nameservers of the pool otherwise. -/
def Ends (pool : Pool) (zone : Zone) (final : Situation) (progress : Progress) : Prop :=
  (progress = .backendsFailed ∧ pool.targets ≠ [] ∧ final.past.any isAcceptance = false) ∨
    ∃ rows, Ending pool zone final progress rows

def WorksOn (zone : Zone) : Operation → Prop
  | .propagate copy action => zone = { copy with action }
  | .recover copy => zone = { copy with action := copy.action.effective }
  | _ => False

section Calls

variable {manager : Manager} {pool : Pool} {zone : Zone} {initial : Surroundings}
  {rows : Status.Memory}

theorem call_parts {call : Operation} {goal : Situation → Progress → Prop}
    (about : WorksOn zone call) (known : manager.topology.get? zone.poolId = some pool)
    (kept : initial.status = .memory rows) (free : initial.locks.held = [])
    (gives : ∀ later, pool.targets ≠ [] →
      Account.Holds zone rows { Account.opening zone initial rows with content := [] } later →
      Succeeds manager goal (giveUp manager.policy pool zone) later)
    (verifies : ∀ later accepted, storedResults zone.key later.past = [] →
      Account.Holds zone rows { Account.opening zone initial rows with content := [], accepted }
        later →
      Succeeds manager goal (verify manager.policy pool zone) later) :
    Strand.Settles manager unexpired (fun final result => ∃ progress,
        result = .attempted (.ok progress) ∧ goal final progress)
      ⟨initial, []⟩ (.start manager call) := by
  have settles : ∀ {program : Fallible Progress}, Succeeds manager goal program ⟨initial, []⟩ →
      Strand.Settles manager unexpired (fun final result => ∃ progress,
          result = .attempted (.ok progress) ∧ goal final progress)
        ⟨initial, []⟩ (.running (Result.attempted <$> program.run)) := by
    intro program succeeds
    apply Strand.Settles.of_along
    apply Conduct.Along.bind succeeds
    rintro final (fault | progress) met
    · cases met
    · exact .pure fun last unmoved => unmoved ▸ ⟨progress, rfl, met⟩
  cases call with
  | propagate copy action =>
      subst about
      apply settles
      apply propagate_parts known kept free gives
      exact fun later accepted _ none holds => verifies later accepted none holds
  | recover copy =>
      subst about
      apply settles
      have opening : (Account.opening { copy with action := copy.action.effective } initial
          rows).Holds { copy with action := copy.action.effective } rows ⟨initial, []⟩ :=
        .opening kept free
      have clearing : Concludes { copy with action := copy.action.effective }
          (clearRows ⟨copy.id, copy.action.effective⟩).run := .perform rfl
      unfold Manager.recover
      apply Succeeds.bind (pool_succeeds known)
      rintro now found ⟨rfl, rfl⟩
      apply Succeeds.bind ((clearRows_succeeds opening).spares clearing.sparing)
      rintro empty _ ⟨cleared, none⟩
      exact verifies empty false none cleared
  | _ => cases about

theorem inline_call_ends {call : Operation} (about : WorksOn zone call)
    (known : manager.topology.get? zone.poolId = some pool)
    (inline : manager.policy.detached = false) (kept : initial.status = .memory rows)
    (free : initial.locks.held = []) :
    Strand.Settles manager unexpired (fun final result => ∃ progress,
        result = .attempted (.ok progress) ∧ Ends pool zone final progress)
      ⟨initial, []⟩ (.start manager call) := by
  apply call_parts about known kept free
  · intro later targets holds
    apply (giveUp_holds holds rfl).weaken
    rintro final progress ⟨gaveUp, none⟩
    exact .inl ⟨gaveUp, targets, none⟩
  · intro later accepted _ holds
    exact (verify_ends inline holds rfl rfl rfl fun _ => rfl).weaken fun _ _ ended => .inr ended

end Calls

/-- An inline call that works alone ends without a verdict exactly when the successes are too few
while the repetitions in the pool's list could make them enough.  Then nothing was reported, and the
rows are left.  With pairwise distinct nameservers there is always a verdict. -/
theorem undecided_iff_repetitions {manager : Manager} {call : Operation} {zone : Zone} {pool : Pool}
    {initial : Surroundings} {rows : Status.Memory} (about : WorksOn zone call)
    (known : manager.topology.get? zone.poolId = some pool)
    (inline : manager.policy.detached = false) (kept : initial.status = .memory rows)
    (free : initial.locks.held = []) :
    Strand.Settles manager unexpired (fun final result => ∃ progress,
        result = .attempted (.ok progress) ∧ Ends pool zone final progress ∧
          (pool.nameservers.Nodup → progress ≠ .verifying))
      ⟨initial, []⟩ (.start manager call) := by
  apply (inline_call_ends about known inline kept free).weaken
  rintro final result ⟨progress, attempted, ended⟩
  refine ⟨progress, attempted, ended, ?_⟩
  intro distinct verifying
  rcases ended with ⟨gaveUp, -⟩ | ⟨read, ending⟩
  · rw [gaveUp] at verifying
    cases verifying
  · have open_ := ending.undecided.mp verifying
    rw [Pool.repetitions_of_nodup distinct] at open_
    omega

private def repeating : Settings where
  pools := [{ id := "p", threshold := some 60
              nameservers := List.replicate 3 { host := "n" } }]

private def repeatingPool : Pool where
  id := "p"
  name := "p"
  nameservers := List.replicate 3 ⟨"n", 53⟩
  threshold := 60

private def withoutVerdict : Zone where
  id := "z"
  name := "z."
  serial := 10
  action := .update
  status := .pending
  poolId := "p"
  updatedAt := ⟨0, 0⟩

private def beforeCall : Surroundings where
  status := .memory { ttl := 3600000 }
  registry := .memory { zones := [withoutVerdict] }

private theorem repeating_known :
    repeating.topology.get? withoutVerdict.poolId = some repeatingPool := rfl

theorem undecided_iff_repetitions_three :
    (Strand.Settles ⟨repeating.topology, repeating.verification⟩ unexpired
      (fun final result => ∃ progress, result = .attempted (.ok progress) ∧
        Ends repeatingPool withoutVerdict final progress ∧
          (repeatingPool.nameservers.Nodup → progress ≠ .verifying))
      ⟨beforeCall, []⟩ (.start ⟨repeating.topology, repeating.verification⟩
        (.propagate withoutVerdict .update))) ∧
    Strand.Settles ⟨repeating.topology, repeating.verification⟩ unexpired
      (fun final result => ∃ progress, result = .attempted (.ok progress) ∧
        Ends repeatingPool withoutVerdict final progress ∧
          (repeatingPool.nameservers.Nodup → progress ≠ .verifying))
      ⟨beforeCall, []⟩ (.start ⟨repeating.topology, repeating.verification⟩
        (.recover withoutVerdict)) :=
  ⟨undecided_iff_repetitions rfl repeating_known rfl rfl rfl,
    undecided_iff_repetitions rfl repeating_known rfl rfl rfl⟩

/-- Settings that pass validation, with which no inline call ever has a verdict, whatever the
nameserver answers. -/
theorem valid_settings_never_decide : ∃ (settings : Settings) (pool : Pool) (zone : Zone)
    (initial : Surroundings), settings.validate = .ok () ∧ settings.asyncVerification = false ∧
      settings.topology.get? zone.poolId = some pool ∧ 0 < pool.required ∧
      pool.required ≤ pool.nameservers.length ∧
      ∀ call, WorksOn zone call →
        Strand.Settles ⟨settings.topology, settings.verification⟩ unexpired
          (fun final result => result = .attempted (.ok .verifying) ∧
            final.past.filter (fun event => delivers event.effect) = [])
          ⟨initial, []⟩ (.start ⟨settings.topology, settings.verification⟩ call) := by
  refine ⟨repeating, repeatingPool, withoutVerdict, beforeCall, rfl, rfl, repeating_known,
    by decide, by decide, ?_⟩
  intro call about
  apply (inline_call_ends about repeating_known rfl rfl rfl).weaken
  rintro final result ⟨progress, rfl, ⟨-, targets, -⟩ | ⟨rows, ending⟩⟩
  · exact absurd rfl targets
  · have single : rows.length = 1 := by
      have listed := ending.polled.servers.length_eq
      rwa [List.length_map] at listed
    have few : successes rows ≤ 1 := by
      rw [← single]
      exact List.countP_le_length
    have required : repeatingPool.required = 2 := by decide
    have repetitions : repeatingPool.repetitions = 2 := by decide
    obtain rfl := ending.undecided.mpr (by omega)
    exact ⟨rfl, (ending.left rfl).1⟩

end Propagation

end ZonePropagation
