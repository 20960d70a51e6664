import ZonePropagation.Proofs.Propagation.Arrival
import ZonePropagation.Proofs.Propagation.Undecided
import ZonePropagation.Proofs.Registry.Delivery
/-!
Verdicts that could not be delivered.

The rows that a verdict was reached on stay until a report of it was accepted.  Until then any of
their results leads to the same verdict when it is recorded once more, and to its delivery.
-/

namespace ZonePropagation.Propagation

open Interleaving Status.Memory

/-! ### The calls of a delivery -/

def mayPass : Fault → Bool
  | .zoneNotFound _ => false
  | _ => true

/-- Calls of a registry, the latest first, each of which it refused for a reason that may pass. -/
inductive RefusedCalls (report : Registry.Report) (before : Registry.Store) :
    List Event → Registry.Store → Prop
  | none : RefusedCalls report before [] before
  | again {calls : List Event} {between after : Registry.Store} {moment : Timestamp} {fault : Fault}
      (earlier : RefusedCalls report before calls between)
      (refused : between.deliver report moment = (.error fault, after))
      (passing : mayPass fault = true) :
      RefusedCalls report before (⟨.deliver report, .error fault⟩ :: calls) after

/-- A delivery in so many calls at most, the latest first.  All calls but the last one were refused
for reasons that may pass, and the last one was as well only if no more calls were left. -/
structure Reporting (most : Nat) (report : Registry.Report) (before : Registry.Store)
    (calls : List Event) (accepted : Bool) (after : Registry.Store) : Prop where
  bounded : calls.length ≤ most
  ended : ∃ earlier between moment reply, calls = ⟨.deliver report, reply⟩ :: earlier ∧
    RefusedCalls report before earlier between ∧
    between.deliver report moment = (reply, after) ∧ accepted = reply.isOk ∧
    ∀ fault, reply = .error fault → mayPass fault = true → calls.length = most

section Registries

variable {report : Registry.Report} {before after : Registry.Store} {calls : List Event}
  {most : Nat} {accepted : Bool}

theorem RefusedCalls.standing (refused : RefusedCalls report before calls after) :
    after.standing = before.standing := by
  induction refused with
  | none => rfl
  | again earlier refused _passing ih => exact (Registry.Store.standing_of_refused refused).trans ih

theorem Reporting.standing (reporting : Reporting most report before calls accepted after)
    (refused : accepted = false) : after.standing = before.standing := by
  obtain ⟨-, earlier, between, moment, reply, -, spurned, last, rfl, -⟩ := reporting
  cases reply with
  | ok _ => cases refused
  | error fault => exact (Registry.Store.standing_of_refused last).trans spurned.standing

theorem RefusedCalls.refusals {zones : Registry.Memory}
    (refused : RefusedCalls report (.memory zones) calls after) :
    ∃ left : Registry.Memory, after = .memory left ∧
      left.refusals + calls.length = zones.refusals := by
  induction refused with
  | none => exact ⟨zones, rfl, rfl⟩
  | @again calls between after moment fault earlier refused _passing ih =>
      obtain ⟨left, rfl, counted⟩ := ih
      rcases Registry.Store.deliver_memory left report moment with
        ⟨fewer, further, outcome⟩ | ⟨-, outcome⟩
      · rw [outcome] at refused
        cases refused
        refine ⟨_, rfl, ?_⟩
        rw [List.length_cons]
        change fewer + _ = _
        omega
      · rw [outcome] at refused
        cases refused

theorem Reporting.of_refusals {zones : Registry.Memory}
    (reporting : Reporting most report (.memory zones) calls accepted after) :
    calls.length = min (zones.refusals + 1) most ∧ (accepted = true ↔ zones.refusals < most) := by
  obtain ⟨bounded, earlier, between, moment, reply, rfl, spurned, last, rfl, exhausted⟩ := reporting
  obtain ⟨left, rfl, counted⟩ := spurned.refusals
  rw [List.length_cons] at bounded exhausted ⊢
  rcases Registry.Store.deliver_memory left report moment with
    ⟨fewer, further, outcome⟩ | ⟨none, outcome⟩
  · rw [outcome] at last
    cases last
    have used := exhausted _ rfl rfl
    refine ⟨by omega, (fun impossible => nomatch impossible), ?_⟩
    intro few
    omega
  · rw [outcome] at last
    cases last
    refine ⟨by omega, ?_, fun _few => rfl⟩
    intro _accepted
    omega

end Registries

/-! ### Verdicts on rows in any order -/

def Decides (pool : Pool) (zone : Zone) (content : List Shown) (status : Status)
    (serial : UInt32) : Prop :=
  ∀ rows : List StatusRecord, (rows.map shown).Perm content →
    (pool.verdict zone.serial rows).report? = some (status, serial)

section Verdicts

variable {pool : Pool} {zone : Zone} {content : List Shown} {status : Status} {serial : UInt32}
  {rows others : List StatusRecord} {arrived : Nameserver → Bool}

theorem verdict_eq_of_perm {expected : UInt32} (same : (rows.map shown).Perm (others.map shown)) :
    pool.verdict expected rows = pool.verdict expected others := by
  have counted := same.filter fun shown => pool.hasNameserver shown.1
  rw [List.filter_map, List.filter_map] at counted
  apply Quorum.evaluate_eq_of_perm
  · rw [confirmed_eq, confirmed_eq]
    exact (counted.filter _).map _
  · have settled := counted.countP_eq fun shown => shown.2.1 != .pending
    rw [List.countP_map, List.countP_map] at settled
    exact settled

theorem Decides.of_verdict (reported : (pool.verdict zone.serial rows).report? =
    some (status, serial)) : Decides pool zone (rows.map shown) status serial := by
  intro others same
  rw [verdict_eq_of_perm same, reported]

theorem Decides.perm {more : List Shown} (decides : Decides pool zone content status serial)
    (same : more.Perm content) : Decides pool zone more status serial :=
  fun rows shows => decides rows (shows.trans same)

theorem exists_report_of_settled (settled : Settled pool zone (rows.map shown) arrived) :
    ∃ status serial, (pool.verdict zone.serial rows).report? = some (status, serial) := by
  cases report : (pool.verdict zone.serial rows).report? with
  | none =>
      have pending := verdict_of_settled settled
      rw [Verdict.report_eq_none_iff.mp report] at pending
      exact absurd pending.symm (answeredStatus_ne_pending pool arrived)
  | some reported => exact ⟨reported.1, reported.2, rfl⟩

end Verdicts

/-! ### An attempt whose reports may be refused -/

def Account.afterCalls (account : Account) (calls : List Event) (accepted : Bool)
    (registry : Registry.Store) : Account :=
  { account with
    registry
    reports := calls ++ account.reports
    content := if accepted then [] else account.content }

def Account.Called (zone : Zone) (origin : Status.Memory) (most : Nat) (account : Account)
    (status : Status) (serial : UInt32) (now : Situation) : Prop :=
  ∃ calls accepted registry,
    Reporting most ⟨zone.id, status, serial⟩ account.registry calls accepted registry ∧
      (account.afterCalls calls accepted registry).Holds zone origin now

structure Account.Complete (pool : Pool) (zone : Zone) (origin : Status.Memory) (account : Account)
    (now : Situation) : Prop where
  holds : account.Holds zone origin now
  settled : Settled pool zone account.content account.arrived
  stored : account.content.Perm (storedResults zone.key now.past)

section Steps

variable {manager : Manager} {pool : Pool} {zone : Zone} {origin : Status.Memory}
  {account : Account} {now : Situation} {policy : VerificationPolicy} {status : Status}
  {serial : UInt32}

theorem deliverOnce_keeps (report : Registry.Report) (holds : account.Holds zone origin now) :
    (solo manager unexpired).Along (fun later (reply : Except Fault Unit) => ∃ moment registry,
        account.registry.deliver report moment = (reply, registry) ∧
          Account.Holds zone origin { account with
            registry
            reports := ⟨.deliver report, reply⟩ :: account.reports } later)
      (perform (.deliver report)) now := by
  apply solo_performs_plain rfl
  intro reply left answer
  obtain ⟨moment, replied, delivered⟩ := holds.delivered answer
  exact ⟨moment, _, Prod.ext replied.symm rfl, delivered⟩

theorem deliverAgain_calls {report : Registry.Report} {most millis left : Nat}
    {earlier : List Event} {between : Registry.Store}
    (refused : RefusedCalls report account.registry earlier between)
    (counted : earlier.length + left + 1 = most)
    (holds : Account.Holds zone origin
      { account with registry := between, reports := earlier ++ account.reports } now) :
    (solo manager unexpired).Along (fun later accepted => ∃ calls registry,
        Reporting most report account.registry calls accepted registry ∧
          Account.Holds zone origin
            { account with registry, reports := calls ++ account.reports } later)
      (deliverAgain report millis left) now := by
  induction left generalizing earlier between millis now with
  | zero =>
      unfold deliverAgain
      apply Conduct.Along.bind (deliverOnce_keeps report holds)
      rintro later reply ⟨moment, registry, replied, kept⟩
      refine .pure fun last unmoved => unmoved ▸
        ⟨⟨.deliver report, reply⟩ :: earlier, registry, ⟨Nat.le_of_eq counted, ?_⟩, kept⟩
      exact ⟨earlier, between, moment, reply, rfl, refused, replied, rfl, fun _ _ _ => counted⟩
  | succ left ih =>
      unfold deliverAgain
      apply Conduct.Along.bind (deliverOnce_keeps report holds)
      rintro later reply ⟨moment, registry, replied, kept⟩
      have bounded : earlier.length + 1 ≤ most := by
        omega
      split
      · refine .pure fun last unmoved => unmoved ▸
          ⟨⟨.deliver report, .ok ()⟩ :: earlier, registry, ⟨bounded, ?_⟩, kept⟩
        exact ⟨earlier, between, moment, _, rfl, refused, replied, rfl,
          fun _ failed => nomatch failed⟩
      · next key =>
        refine .pure fun last unmoved => unmoved ▸
          ⟨⟨.deliver report, .error (.zoneNotFound key)⟩ :: earlier, registry, ⟨bounded, ?_⟩, kept⟩
        refine ⟨earlier, between, moment, _, rfl, refused, replied, rfl, ?_⟩
        rintro fault failed passing
        cases failed
        cases passing
      · next fault known =>
          have passing : mayPass fault = true := by
            cases fault with
            | zoneNotFound key => exact absurd rfl (known key)
            | _ => rfl
          have paused : (solo manager unexpired).Along (fun later _ => Account.Holds zone origin
              { account with
                registry
                reports := ⟨.deliver report, .error fault⟩ :: earlier ++ account.reports } later)
              (perform (.pauseUpTo millis)) later := by
            apply solo_performs_plain rfl
            intro reply left answer
            exact kept.following_aside answer ⟨rfl, rfl, rfl, fun _ _ => rfl⟩ rfl
          apply Conduct.Along.bind paused
          intro last _ further
          apply ih (.again refused replied passing) ?_ further
          rw [List.length_cons]
          omega

theorem deliver_calls (holds : account.Holds zone origin now) :
    (solo manager unexpired).Along (fun later accepted => ∃ calls registry,
        Reporting (max 1 policy.reportAttempts) ⟨zone.id, status, serial⟩ account.registry calls
          accepted registry ∧
          Account.Holds zone origin
            { account with registry, reports := calls ++ account.reports } later)
      (deliver policy zone status serial) now := by
  unfold deliver
  have counted : ([] : List Event).length + (policy.reportAttempts - 1) + 1 =
      max 1 policy.reportAttempts := by
    rw [List.length_nil]
    omega
  apply Conduct.Along.bind (deliverAgain_calls .none counted holds)
  rintro later accepted ⟨calls, registry, reporting, kept⟩
  cases accepted with
  | true => exact .pure fun last unmoved => unmoved ▸ ⟨calls, registry, reporting, kept⟩
  | false =>
      apply Conduct.Along.bind (measure_keeps kept _)
      exact fun last _ held => .pure fun final unmoved =>
        unmoved ▸ ⟨calls, registry, reporting, held⟩

theorem conclude_calls (holds : account.Holds zone origin now) :
    Succeeds manager (fun later _ =>
        account.Called zone origin (max 1 policy.reportAttempts) status serial later)
      (conclude policy zone status serial) now := by
  unfold conclude
  apply Succeeds.bind (.lift (measure_keeps holds _))
  intro measured _ kept
  apply Succeeds.bind (.lift (deliver_calls kept))
  rintro later accepted ⟨calls, registry, reporting, delivered⟩
  cases accepted with
  | true =>
      apply (clearRows_succeeds delivered).weaken
      exact fun final _ cleared => ⟨calls, true, registry, reporting, cleared⟩
  | false => exact Succeeds.pure ⟨calls, false, registry, reporting, delivered⟩

theorem lockedDecide_calls (holds : account.Holds zone origin now) (free : account.held = [])
    (settled : Settled pool zone account.content account.arrived) :
    Succeeds manager (fun later verdict => ∃ status serial,
        verdict.report? = some (status, serial) ∧
          Decides pool zone account.content status serial ∧
          account.Called zone origin (max 1 policy.reportAttempts) status serial later)
      (ExceptT.mk (locked zone.key (decide policy pool zone).run)) now := by
  apply Conduct.Along.weaken (locked_keeps (fun outcome next =>
    ∃ verdict status serial calls accepted registry, outcome = .ok verdict ∧
      verdict.report? = some (status, serial) ∧ Decides pool zone account.content status serial ∧
      Reporting (max 1 policy.reportAttempts) ⟨zone.id, status, serial⟩ account.registry calls
        accepted registry ∧
      next = account.afterCalls calls accepted registry) holds free ?_)
  · rintro later outcome ⟨_, ⟨verdict, status, serial, calls, accepted, registry, rfl, report,
      decides, reporting, rfl⟩, kept⟩
    have unlocked : account = { account with held := [] } := by
      rw [← free]
    refine ⟨status, serial, report, decides, calls, accepted, registry, reporting, ?_⟩
    rw [unlocked]
    exact kept
  · intro lock later held
    apply Conduct.Along.weaken (decide_parts held fun status serial between kept =>
      conclude_calls kept)
    rintro last (fault | verdict) met
    · cases met
    · obtain ⟨rows, -, shows, rfl, -, concluded⟩ := met
      change rows.map shown = account.content at shows
      rw [← shows] at settled
      obtain ⟨status, serial, report⟩ := exists_report_of_settled settled
      obtain ⟨calls, accepted, registry, reporting, kept⟩ := concluded status serial report
      refine ⟨_, ⟨_, status, serial, calls, accepted, registry, rfl, report, ?_, reporting, rfl⟩,
        kept⟩
      rw [← shows]
      exact .of_verdict report

theorem verify_calls (inline : policy.detached = false) (distinct : pool.nameservers.Nodup)
    (holds : account.Holds zone origin now) (empty : account.content = [])
    (free : account.held = []) (unanswered : ∀ server, account.arrived server = false)
    (none : storedResults zone.key now.past = []) :
    Succeeds manager (fun later progress => ∃ content arrived status serial,
        progress = .decided status ∧ Settled pool zone content arrived ∧
          content.Perm (storedResults zone.key later.past) ∧
          Decides pool zone content status serial ∧
          Account.Called zone origin (max 1 policy.reportAttempts) { account with content, arrived }
            status serial later)
      (verify policy pool zone) now := by
  unfold verify
  apply Succeeds.bind ((storeRows_succeeds holds pool.nameservers .pending (by simp [empty])).spares
    (awaitAll_sparing zone.key pool.nameservers))
  rintro pending _ ⟨⟨content, inside, kept⟩, still⟩
  rw [inline, Bool.false_and, if_neg Bool.false_ne_true]
  apply Succeeds.bind (.lift (verifications_keep kept distinct unanswered inside))
  rintro verified results ⟨stored, content, arrived, settled, told, done⟩
  rw [still, none, List.append_nil] at told
  have complete : Account.Complete pool zone origin { account with content, arrived } verified :=
    ⟨done, settled, told.symm⟩
  apply Succeeds.bind (stored_succeeds rfl stored complete)
  rintro checked _ ⟨met, settled, same⟩
  apply Succeeds.bind ((lockedDecide_calls met free settled).spares
    (locked_sparing decide_concludes.sparing))
  rintro decided verdict ⟨⟨status, serial, report, decides, called⟩, spared⟩
  rw [← spared] at same
  cases verdict with
  | pending _ _ _ => cases report
  | success _ | error _ =>
      cases report
      exact .pure ⟨content, arrived, _, _, rfl, settled, same, decides, called⟩

end Steps

/-! ### What a call leaves behind -/

/-- What an inline call has come to with a result.  It is that of the rows which its verifications
stored, one for each nameserver, and these are left unless the report was accepted. -/
structure Ruling (manager : Manager) (pool : Pool) (zone : Zone) (initial : Surroundings)
    (rows : Status.Memory) (status : Status) (serial : UInt32) (accepted : Bool)
    (final : Situation) : Prop where
  servers : ((storedResults zone.key final.past).map Prod.fst).Perm pool.nameservers
  decides : Decides pool zone (storedResults zone.key final.past) status serial
  calls : Reporting (max 1 manager.policy.reportAttempts) ⟨zone.id, status, serial⟩
    initial.registry (deliveries final) accepted final.surroundings.registry
  left : ∃ content memory, final.surroundings.status = .memory memory ∧
    Shows rows zone.key content memory ∧
    content.Perm (if accepted then [] else storedResults zone.key final.past)
  free : final.surroundings.locks.held = []

structure Redelivered (zone : Zone) (status : Status) (serial : UInt32) (memory : Status.Memory)
    (now later : Situation) (result : Result) : Prop where
  answered : ∃ verdict, result = .recorded (.ok (some verdict)) ∧
    verdict.report? = some (status, serial)
  delivered : deliveries later = ⟨.deliver ⟨zone.id, status, serial⟩, .ok ()⟩ :: deliveries now
  registry : ∃ moment, later.surroundings.registry =
    (now.surroundings.registry.deliver ⟨zone.id, status, serial⟩ moment).2
  cleared : later.surroundings.status = .memory (memory.clear zone.id zone.action)

/-- Nothing stands in the registry that did not before.  Whenever the rows are still those that the
verifications stored, one of their results leads to the delivery when it is recorded again. -/
structure Recoverable (manager : Manager) (zone : Zone) (initial : Surroundings)
    (status : Status) (serial : UInt32) (final : Situation) : Prop where
  unchanged : final.surroundings.registry.standing = initial.registry.standing
  again : ∀ copy now memory, { copy with action := copy.action.effective } = zone →
    now.surroundings.status = .memory memory →
    (memory.content zone.key).Perm (storedResults zone.key final.past) →
    Accepting now.surroundings.registry zone → now.surroundings.locks.held = [] →
    ∀ written ∈ storedResults zone.key final.past,
      Strand.Settles manager unexpired (Redelivered zone status serial memory now) now
        (.start manager (.record copy written.1 written.2.1 written.2.2))

section Calls

variable {manager : Manager} {pool : Pool} {zone : Zone} {initial : Surroundings}
  {rows : Status.Memory} {status : Status} {serial : UInt32}

theorem Ruling.of_called {account : Account} {final : Situation}
    (registry : account.registry = initial.registry) (silent : account.reports = [])
    (unlocked : account.held = [])
    (servers : (account.content.map Prod.fst).Perm pool.nameservers)
    (stored : account.content.Perm (storedResults zone.key final.past))
    (decides : Decides pool zone account.content status serial)
    (called : account.Called zone rows (max 1 manager.policy.reportAttempts) status serial final) :
    ∃ accepted, Ruling manager pool zone initial rows status serial accepted final := by
  obtain ⟨calls, accepted, after, reporting, holds⟩ := called
  have reports : deliveries final = calls := by
    have told : deliveries final = calls ++ account.reports := holds.reports
    rwa [silent, List.append_nil] at told
  have left : final.surroundings.registry = after := holds.registry
  obtain ⟨memory, kept, shows⟩ := holds.rows
  refine ⟨accepted, (stored.map Prod.fst).symm.trans servers, decides.perm stored.symm, ?_,
    ⟨_, memory, kept, shows, ?_⟩, holds.held.trans unlocked⟩
  · rw [reports, left, ← registry]
    exact reporting
  · cases accepted with
    | true => exact .refl []
    | false => exact stored

theorem inline_call_rules {call : Operation} (about : WorksOn zone call)
    (known : manager.topology.get? zone.poolId = some pool) (distinct : pool.nameservers.Nodup)
    (inline : manager.policy.detached = false) (kept : initial.status = .memory rows)
    (free : initial.locks.held = []) :
    Strand.Settles manager unexpired (fun final result => ∃ progress,
        result = .attempted (.ok progress) ∧
          ((progress = .backendsFailed ∧ pool.targets ≠ [] ∧
              final.past.any isAcceptance = false) ∨
            ∃ status serial accepted, progress = .decided status ∧
              Ruling manager pool zone initial rows status serial accepted final))
      ⟨initial, []⟩ (.start manager call) := by
  apply call_parts about known kept free
  · intro later targets holds
    apply (giveUp_holds holds rfl).weaken
    rintro final progress ⟨gaveUp, none⟩
    exact .inl ⟨gaveUp, targets, none⟩
  · intro later accepted none holds
    apply (verify_calls inline distinct holds rfl rfl (fun _ => rfl) none).weaken
    rintro final progress
      ⟨content, arrived, status, serial, decided, settled, same, decides, called⟩
    obtain ⟨accepted, ruling⟩ := Ruling.of_called rfl rfl rfl settled.servers same decides called
    exact .inr ⟨status, serial, accepted, decided, ruling⟩

theorem recorded_again_redelivers {copy : Zone} {now : Situation} {memory : Status.Memory}
    {content : List Shown} {written : Shown}
    (known : manager.topology.get? copy.poolId = some pool) (distinct : pool.nameservers.Nodup)
    (servers : (content.map Prod.fst).Perm pool.nameservers)
    (decides : Decides pool copy content status serial)
    (kept : now.surroundings.status = .memory memory)
    (same : (memory.content ⟨copy.id, copy.action.effective⟩).Perm content)
    (accepting : Accepting now.surroundings.registry copy)
    (free : now.surroundings.locks.held = []) (member : written ∈ content) :
    Strand.Settles manager unexpired
      (Redelivered { copy with action := copy.action.effective } status serial memory now) now
      (.start manager (.record copy written.1 written.2.1 written.2.2)) := by
  have holds : Account.Holds { copy with action := copy.action.effective } memory
      { content := memory.content ⟨copy.id, copy.action.effective⟩
        registry := now.surroundings.registry
        reports := deliveries now
        held := []
        accepted := now.past.any isAcceptance
        arrived := fun server =>
          now.past.any (isArrival { copy with action := copy.action.effective } server) } now :=
    ⟨⟨memory, kept, .refl memory _⟩, rfl, rfl, free, rfl, fun _ => rfl⟩
  have counted : written ∈ memory.content ⟨copy.id, copy.action.effective⟩ :=
    same.mem_iff.mpr member
  have inside : written.1 ∈ pool.nameservers := servers.mem_iff.mp (List.mem_map_of_mem member)
  have once : ((memory.content ⟨copy.id, copy.action.effective⟩).map Prod.fst).Nodup :=
    ((same.map Prod.fst).trans servers).nodup_iff.mpr distinct
  apply (recording_settles (fun _ => written.2) known inside holds (fun _ => accepting) rfl).weaken
  rintro later result ⟨answer, after, rfl, -, recorded, left⟩
  have decided : ∀ rows : List StatusRecord,
      rows.map shown = put written (memory.content ⟨copy.id, copy.action.effective⟩) →
        (pool.verdict copy.serial rows).report? = some (status, serial) := by
    intro rows shows
    apply decides
    rw [shows]
    exact (put_perm once counted).trans same
  cases recorded with
  | ignored empty =>
      change memory.content ⟨copy.id, copy.action.effective⟩ = [] at empty
      rw [empty] at counted
      cases counted
  | counted present shows unreported =>
      rw [decided _ shows] at unreported
      cases unreported
  | @concluded rows _ _ moment present shows reported =>
      have verdict := decided rows shows
      rw [reported] at verdict
      cases verdict
      obtain ⟨memoryLeft, keptLeft, nothing⟩ := left.rows
      refine ⟨⟨_, rfl, reported⟩, left.reports, ⟨moment, left.registry⟩, ?_⟩
      rw [keptLeft, nothing.eq_clear]
      rfl

theorem Ruling.recoverable {final : Situation}
    (known : manager.topology.get? zone.poolId = some pool) (distinct : pool.nameservers.Nodup)
    (ruling : Ruling manager pool zone initial rows status serial false final) :
    Recoverable manager zone initial status serial final where
  unchanged := ruling.calls.standing rfl
  again := by
    rintro copy now memory rfl kept same accepting free written member
    exact recorded_again_redelivers known distinct ruling.servers ruling.decides kept same accepting
      free member

end Calls

/-- An inline call that works alone either gives up the change or comes to a result.  It reports the
result until the first acceptance, as often as its attempts allow and no more once the zone is not
known.  If no report was accepted, the registry stands as before and the rows are the results that
the verifications stored.  The result of any nameserver, recorded again for the zone with a registry
that accepts, then delivers the same status and serial once and clears the rows. -/
theorem undelivered_verdict_recoverable {manager : Manager} {call : Operation} {zone : Zone}
    {pool : Pool} {initial : Surroundings} {rows : Status.Memory} (about : WorksOn zone call)
    (known : manager.topology.get? zone.poolId = some pool) (distinct : pool.nameservers.Nodup)
    (inline : manager.policy.detached = false) (kept : initial.status = .memory rows)
    (free : initial.locks.held = []) :
    Strand.Settles manager unexpired (fun final result => ∃ progress,
        result = .attempted (.ok progress) ∧
          ((progress = .backendsFailed ∧ pool.targets ≠ [] ∧
              final.past.any isAcceptance = false) ∨
            ∃ status serial accepted, progress = .decided status ∧
              Ruling manager pool zone initial rows status serial accepted final ∧
              (accepted = false → Recoverable manager zone initial status serial final) ∧
              ∀ zones, initial.registry = .memory zones →
                (deliveries final).length =
                  min (zones.refusals + 1) (max 1 manager.policy.reportAttempts) ∧
                (accepted = true ↔ zones.refusals < max 1 manager.policy.reportAttempts)))
      ⟨initial, []⟩ (.start manager call) := by
  apply (inline_call_rules about known distinct inline kept free).weaken
  rintro final result ⟨progress, rfl, gaveUp | ⟨status, serial, accepted, decided, ruling⟩⟩
  · exact ⟨progress, rfl, .inl gaveUp⟩
  · refine ⟨progress, rfl, .inr ⟨status, serial, accepted, decided, ruling, ?_, ?_⟩⟩
    · rintro rfl
      exact ruling.recoverable known distinct
    · intro zones inProcess
      have calls := ruling.calls
      rw [inProcess] at calls
      exact calls.of_refusals

private def poolOfFailing : Pool where
  id := "p"
  name := "p"
  targets := []
  nameservers := [⟨"a", 53⟩, ⟨"b", 53⟩, ⟨"c", 53⟩]
  threshold := 60

private def managerOfFailing : Manager where
  topology := { pools := [poolOfFailing] }
  policy := { probe := ⟨1000, 100, 3⟩, reportAttempts := 3 }

private def notReported : Zone where
  id := "z"
  name := "z."
  serial := 10
  action := .update
  status := .pending
  poolId := "p"
  updatedAt := ⟨0, 0⟩

private def noneLeft : Status.Memory where
  ttl := 3600000

private def refusing (reports : Nat) : Surroundings where
  status := .memory noneLeft
  registry := .memory { zones := [notReported], refusals := reports }

/-- Three attempts to report an update to a registry that refuses five.  Any of the three results,
recorded again with a registry that refuses none, leads to the one report. -/
theorem undelivered_verdict_recoverable_five :
    Strand.Settles managerOfFailing unexpired (fun final result => ∃ status serial,
        result = .attempted (.ok (.decided status)) ∧ (deliveries final).length = 3 ∧
          final.surroundings.registry.standing = (refusing 0).registry ∧
          (storedResults notReported.key final.past).length = 3 ∧
          ∀ written ∈ storedResults notReported.key final.past,
            Strand.Settles managerOfFailing unexpired
              (fun later _ => deliveries later = [⟨.deliver ⟨"z", status, serial⟩, .ok ()⟩] ∧
                later.surroundings.status = .memory noneLeft)
              ⟨{ final.surroundings with registry := (refusing 0).registry }, []⟩
              (.start managerOfFailing
                (.record notReported written.1 written.2.1 written.2.2)))
      ⟨refusing 5, []⟩ (.start managerOfFailing (.propagate notReported .update)) := by
  have settles := @undelivered_verdict_recoverable managerOfFailing
    (.propagate notReported .update) notReported poolOfFailing (refusing 5) noneLeft rfl rfl
    (by decide) rfl rfl rfl
  apply settles.weaken
  rintro final result
    ⟨progress, rfl, ⟨-, targets, -⟩ | ⟨status, serial, accepted, rfl, ruling, recoverable, counted⟩⟩
  · exact absurd rfl targets
  · obtain ⟨calls, accepts⟩ := counted _ rfl
    have refused : accepted = false := by
      rw [Bool.eq_false_iff, ne_eq, accepts]
      decide
    subst refused
    have kept := recoverable rfl
    have servers := ruling.servers.length_eq
    rw [List.length_map] at servers
    refine ⟨status, serial, rfl, calls, kept.unchanged, servers, fun written member => ?_⟩
    obtain ⟨content, memory, left, shows, same⟩ := ruling.left
    rw [← shows.content] at same
    apply (kept.again notReported ⟨{ final.surroundings with registry := (refusing 0).registry }, []⟩
      memory rfl left same (fun _ _ _ => rfl) ruling.free written member).weaken
    rintro later outcome ⟨-, delivered, -, cleared⟩
    refine ⟨delivered, ?_⟩
    rw [cleared]
    exact congrArg Status.Store.memory shows.cleared

end ZonePropagation.Propagation
