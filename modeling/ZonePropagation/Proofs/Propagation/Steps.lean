import ZonePropagation.Proofs.Propagation.Results
import ZonePropagation.Proofs.Propagation.Round
/-!
What each part of an attempt makes of its account, when the attempt works alone and its reports are
accepted.
-/

namespace ZonePropagation

theorem Verdict.status_of_report {verdict : Verdict} {status : Status} {serial : UInt32}
    (reported : verdict.report? = some (status, serial)) : verdict.status = status := by
  cases verdict with
  | pending _ _ _ => cases reported
  | success _ | error _ =>
      cases reported
      rfl

theorem Verdict.report_eq_none_iff {verdict : Verdict} :
    verdict.report? = none ↔ verdict.status = .pending := by
  cases verdict with
  | pending _ _ _ => exact ⟨fun _ => rfl, fun _ => rfl⟩
  | success _ | error _ =>
      constructor
      · intro unreported
        cases unreported
      · intro pending
        cases pending

namespace Propagation

open Interleaving Status.Memory

/-- A report of an attempt is accepted whenever it comes. -/
def Accepting (registry : Registry.Store) (zone : Zone) : Prop :=
  ∀ status serial moment, (registry.deliver ⟨zone.id, status, serial⟩ moment).1 = .ok ()

def Account.reported (account : Account) (zone : Zone) (status : Status) (serial : UInt32)
    (moment : Timestamp) : Account :=
  { account with
    registry := (account.registry.deliver ⟨zone.id, status, serial⟩ moment).2
    reports := ⟨.deliver ⟨zone.id, status, serial⟩, .ok ()⟩ :: account.reports }

def Account.Concluded (zone : Zone) (origin : Status.Memory) (account : Account) (status : Status)
    (serial : UInt32) (now : Situation) : Prop :=
  ∃ moment, Account.Holds zone origin
    { account.reported zone status serial moment with content := [] } now

section Steps

variable {manager : Manager} {pool : Pool} {zone : Zone} {origin : Status.Memory}
  {account : Account} {now : Situation} {policy : VerificationPolicy}

/-- A program of an attempt that works alone, and does not fail. -/
abbrev Succeeds {α : Type} (manager : Manager) (goal : Situation → α → Prop)
    (program : Fallible α) (now : Situation) : Prop :=
  (solo manager unexpired).Tries goal (fun _ _ => False) program now

namespace Succeeds

variable {α β : Type} {goal weaker : Situation → α → Prop} {final : Situation → β → Prop}

theorem pure {value : α} (met : goal now value) : Succeeds manager goal (Pure.pure value) now :=
  fun _later unmoved => unmoved ▸ met

theorem lift {program : Program α} (along : (solo manager unexpired).Along goal program now) :
    Succeeds manager goal (liftM program) now :=
  Conduct.Tries.lift along fun _ _ _ unmoved met => unmoved ▸ met

theorem bind {program : Fallible α} {follow : α → Fallible β}
    (first : Succeeds manager goal program now)
    (second : ∀ later value, goal later value → Succeeds manager final (follow value) later) :
    Succeeds manager final (program >>= follow) now :=
  Conduct.Tries.bind first second fun _ _ _ _ never => never

theorem weaken {program : Fallible α} (succeeds : Succeeds manager goal program now)
    (implies : ∀ later value, goal later value → weaker later value) :
    Succeeds manager weaker program now := by
  apply Conduct.Along.weaken succeeds
  rintro later (fault | value) met
  · exact met
  · exact implies later value met

theorem spares {program : Fallible α} {key : ActionKey} (sparing : Sparing manager program.run)
    (succeeds : Succeeds manager goal program now) :
    Succeeds manager (fun later value => goal later value ∧
      storedResults key later.past = storedResults key now.past) program now := by
  apply Conduct.Along.weaken (solo_spares sparing succeeds)
  rintro later (fault | value) ⟨met, same⟩
  · exact met
  · exact ⟨met, same⟩

theorem grows {program : Fallible α} (succeeds : Succeeds manager goal program now) :
    Succeeds manager (fun later value => goal later value ∧ now.past <:+ later.past) program
      now := by
  apply Conduct.Along.weaken (solo_grows succeeds)
  rintro later (fault | value) ⟨met, longer⟩
  · exact met
  · exact ⟨met, longer⟩

end Succeeds

theorem pool_succeeds (known : manager.topology.get? zone.poolId = some pool) :
    Succeeds manager (fun later found => now = later ∧ pool = found) (manager.pool zone) now := by
  unfold Manager.pool Topology.get
  rw [known]
  exact Succeeds.pure ⟨rfl, rfl⟩

theorem clearRows_succeeds (holds : account.Holds zone origin now) :
    Succeeds manager (fun later _ => Account.Holds zone origin { account with content := [] } later)
      (clearRows zone.key) now := by
  apply solo_performs_plain rfl
  intro reply left answer
  obtain ⟨rfl, cleared⟩ := holds.cleared answer
  exact cleared

theorem storeRow_succeeds (holds : account.Holds zone origin now) (server : Nameserver)
    (status : Status) (serial : Option UInt32) :
    Succeeds manager (fun later _ => Account.Holds zone origin
        { account with content := put (server, status, serial) account.content } later)
      (storeRow zone.key server status serial) now := by
  apply solo_performs_plain rfl
  intro reply left answer
  obtain ⟨rfl, wrote⟩ := holds.wrote answer
  exact wrote

theorem storeRows_succeeds (holds : account.Holds zone origin now) (servers : List Nameserver)
    (status : Status) (inside : ∀ shown ∈ account.content, shown.1 ∈ servers) :
    Succeeds manager (fun later _ => ∃ content, (∀ shown ∈ content, shown.1 ∈ servers) ∧
        Account.Holds zone origin { account with content } later)
      (servers.forM fun server => storeRow zone.key server status none) now := by
  apply Conduct.Tries.forM
  · rintro before later rfl kept
    exact kept
  · exact fun _ _ _ _ never => never
  · rintro server member before ⟨content, among, kept⟩
    apply (storeRow_succeeds kept server status none).weaken
    intro later _ wrote
    refine ⟨_, ?_, wrote⟩
    intro shown written
    rcases mem_put written with earlier | rfl
    · exact among shown earlier
    · exact member
  · exact ⟨account.content, inside, holds⟩

theorem stored_succeeds {results : List Result} {kept : Situation → Prop}
    {check : Result → PUnit → Fallible (ForInStep PUnit)}
    (passes : check (.stored (.ok ())) ⟨⟩ = Pure.pure (.yield ⟨⟩))
    (stored : ∀ result ∈ results, result = .stored (.ok ())) (begun : kept now) :
    Succeeds manager (fun later _ => kept later) (ForIn.forIn results PUnit.unit check) now := by
  apply Conduct.Tries.forIn
  · rintro before later rfl met
    exact met
  · exact fun _ _ _ _ never => never
  · intro result member before met
    rw [stored result member, passes]
    exact Succeeds.pure met
  · exact begun

theorem measure_keeps (holds : account.Holds zone origin now) (thing : Measure) :
    (solo manager unexpired).Along (fun later _ => account.Holds zone origin later)
      (measure thing) now := by
  apply solo_performs_plain rfl
  intro reply left answer
  exact holds.following_aside answer (.measure thing reply) rfl

private theorem fork_keeps {after : Surroundings} {past : List Event} {width : Nat}
    {work : List Operation} {results : List Result}
    (holds : account.Holds zone origin ⟨after, past⟩) :
    account.Holds zone origin
      (Situation.following ⟨after, past⟩ (.fork width work) results after) := by
  have answer : Answers unexpired after (.fork width work) results after := rfl
  exact holds.following_aside answer ⟨rfl, rfl, rfl, fun _ _ => rfl⟩ rfl

private theorem of_shares {shares : List Share} {events : List Event} {condition : Event → Prop}
    (permuted : events.Perm (shares.flatMap Share.events))
    (each : ∀ share ∈ shares, ∀ event ∈ share.events, condition event) :
    ∀ event ∈ events, condition event := by
  intro event member
  obtain ⟨share, inside, performed⟩ := List.mem_flatMap.mp (permuted.mem_iff.mp member)
  exact each share inside event performed

private theorem changes_yield (manager : Manager) (pool : Pool) (zone : Zone) :
    ∀ operation ∈ pool.targets.map fun target => Operation.change target.id zone,
      Yields (fun events result => (∀ event ∈ events, Aside zone (fun _ => False) event) ∧
        events.any isAcceptance = result.isSuccess) (manager.program operation) := by
  intro operation member
  obtain ⟨target, -, rfl⟩ := List.mem_map.mp member
  exact change_yields manager target.id zone

private theorem announcements_yield (manager : Manager) (pool : Pool) (zone : Zone) :
    ∀ operation ∈ pool.alsoNotifies.map (Operation.announce zone),
      Yields (fun events _ => (∀ event ∈ events, Aside zone (fun _ => False) event) ∧
        events.any isAcceptance = false) (manager.program operation) := by
  intro operation member
  obtain ⟨server, -, rfl⟩ := List.mem_map.mp member
  exact announce_yields manager zone server

private theorem verifications_yield (manager : Manager) (pool : Pool) (zone : Zone) :
    ∀ operation ∈ pool.nameservers.map (Operation.verify zone),
      Yields (fun events result => ∃ server status serial reply rest,
        Verified zone server status serial reply rest ⟨operation, events, result⟩)
        (manager.program operation) := by
  intro operation member
  obtain ⟨server, -, rfl⟩ := List.mem_map.mp member
  apply (verify_yields manager zone server).weaken
  rintro events result ⟨status, serial, reply, rest, performed, stored, polled⟩
  exact ⟨server, status, serial, reply, rest, rfl, performed, stored, polled⟩

theorem dispatch_keeps (holds : account.Holds zone origin now)
    (uncalled : account.accepted = false) :
    (solo manager unexpired).Along (fun later accepted =>
        Account.Holds zone origin { account with accepted := accepted != 0 } later)
      (dispatch pool zone) now := by
  have counted : (solo manager unexpired).Along (fun later results =>
      Account.Holds zone origin
        { account with accepted := results.countP Result.isSuccess != 0 } later)
      (sideBySide (pool.targets.map fun target => .change target.id zone)) now := by
    apply solo_forks (changes_yield manager pool zone)
    intro shares events after sameWork told permuted leads
    have aside := of_shares permuted fun share inside => (told share inside).1
    have same : (events.any isAcceptance || account.accepted) =
        ((shares.map Share.result).countP Result.isSuccess != 0) := by
      rw [uncalled, Bool.or_false]
      exact any_isAcceptance_of_shares permuted fun share inside => (told share inside).2
    apply fork_keeps
    rw [← same]
    exact holds.leads_aside leads aside
  exact Conduct.Along.bind counted fun later results met =>
    .pure fun last unmoved => unmoved ▸ met

theorem announceToOthers_keeps (holds : account.Holds zone origin now) :
    (solo manager unexpired).Along (fun later _ => account.Holds zone origin later)
      (announceToOthers pool zone) now := by
  unfold announceToOthers
  split
  · exact .pure fun last unmoved => unmoved ▸ holds
  · have announced : (solo manager unexpired).Along
        (fun later _ => account.Holds zone origin later)
        (sideBySide (pool.alsoNotifies.map (.announce zone))) now := by
      apply solo_forks (announcements_yield manager pool zone)
      intro shares events after sameWork told permuted leads
      have silent : events.any isAcceptance = false := by
        rw [permuted.any_eq, List.any_flatMap, List.any_eq_false]
        intro share inside
        rw [(told share inside).2]
        exact Bool.false_ne_true
      have kept := holds.leads_aside leads (of_shares permuted fun share inside =>
        (told share inside).1)
      rw [silent] at kept
      exact fork_keeps kept
    exact Conduct.Along.bind announced fun later results met =>
      .pure fun last unmoved => unmoved ▸ met

/-- After a round of verifications every row was stored, the latest one for each nameserver. -/
theorem verifications_hold (holds : account.Holds zone origin now)
    (unanswered : ∀ server, account.arrived server = false) :
    (solo manager unexpired).Along (fun later results =>
        (∀ result ∈ results, result = .stored (.ok ())) ∧
          ∃ (shares : List Share) (events : List Event),
            shares.map Share.operation = pool.nameservers.map (.verify zone) ∧
            (∀ share ∈ shares, ∃ server status serial reply rest,
              Verified zone server status serial reply rest share) ∧
            events.Perm (shares.flatMap Share.events) ∧
            storedResults zone.key later.past =
              storedResults zone.key events ++ storedResults zone.key now.past ∧
            Account.Holds zone origin { account with
              content := (events.filterMap (rowOf zone.key)).foldr put account.content
              arrived := fun server => events.any (isArrival zone server) } later)
      (sideBySide (pool.nameservers.map (.verify zone))) now := by
  apply solo_forks (verifications_yield manager pool zone)
  intro shares events after sameWork verified permuted leads
  have each := of_shares permuted fun share inShares => by
    obtain ⟨_, _, _, _, _, one⟩ := verified share inShares
    exact one.modest
  have modest := fun event member => (each event member).1
  have refused : events.any isAcceptance = false := by
    rw [permuted.any_eq, List.any_flatMap, List.any_eq_false]
    intro share inShares
    obtain ⟨_, _, _, _, _, one⟩ := verified share inShares
    rw [one.refused]
    exact Bool.false_ne_true
  have still : events.foldr (fun event held => heldAfter held event.effect) account.held =
      account.held := by
    clear leads modest refused permuted
    induction events with
    | nil => rfl
    | cons event events ih =>
        rw [List.foldr_cons, ih fun other member => each other (by simp [member])]
        exact heldAfter_of_turnsLocks (each event (by simp)).2 _
  have followed := holds.leads leads modest
  unfold Account.through at followed
  rw [refused, still] at followed
  refine ⟨?_, shares, events, sameWork, verified, permuted, storedResults_append _ _, ?_⟩
  · intro result member
    obtain ⟨share, inShares, rfl⟩ := List.mem_map.mp member
    obtain ⟨_, _, _, _, _, one⟩ := verified share inShares
    have performed := permuted.mem_iff.mpr (List.mem_flatMap.mpr ⟨share, inShares, one.wrote⟩)
    have stored := one.result
    rwa [holds.stored leads modest performed] at stored
  · apply fork_keeps
    simpa [unanswered] using followed

/-- The rows after a round of verifications are settled, and are the results that it stored. -/
theorem verifications_keep (holds : account.Holds zone origin now)
    (distinct : pool.nameservers.Nodup) (unanswered : ∀ server, account.arrived server = false)
    (inside : ∀ shown ∈ account.content, shown.1 ∈ pool.nameservers) :
    (solo manager unexpired).Along (fun later results =>
        (∀ result ∈ results, result = .stored (.ok ())) ∧
          ∃ content arrived, Settled pool zone content arrived ∧
            (storedResults zone.key later.past).Perm (content ++ storedResults zone.key now.past) ∧
            Account.Holds zone origin { account with content, arrived } later)
      (sideBySide (pool.nameservers.map (.verify zone))) now := by
  apply (verifications_hold holds unanswered).weaken
  rintro later results ⟨stored, shares, events, sameWork, verified, permuted, told, kept⟩
  have settled := settled_of_shares distinct sameWork verified permuted inside
  refine ⟨stored, _, _, settled, ?_, kept⟩
  have rows := rows_of_shares distinct sameWork verified permuted inside
  have all : storedResults zone.key events = events.filterMap (rowOf zone.key) := by
    unfold storedResults
    rw [List.filter_eq_self]
    intro shown member
    rw [bne_iff_ne]
    apply (settled.fair shown _).settled
    rw [rows, List.mem_reverse]
    exact member
  rw [told, all, rows]
  exact (List.reverse_perm _).symm.append_right _

section Reports

variable {status : Status} {serial : UInt32}

theorem deliver_keeps (holds : account.Holds zone origin now)
    (accepting : ∀ moment,
      (account.registry.deliver ⟨zone.id, status, serial⟩ moment).1 = .ok ()) :
    (solo manager unexpired).Along (fun later accepted => accepted = true ∧
        ∃ moment, (account.reported zone status serial moment).Holds zone origin later)
      (deliver policy zone status serial) now := by
  apply Conduct.Along.deliver (account.Holds zone origin)
  · intro now holds
    apply solo_performs_plain rfl
    intro reply left answer
    obtain ⟨moment, replied, delivered⟩ := holds.delivered answer
    rw [accepting moment] at replied
    subst replied
    exact ⟨rfl, moment, delivered⟩
  · rintro millis now ⟨impossible, -⟩
    cases impossible
  · rintro now ⟨impossible, -⟩
    cases impossible
  · rintro now later accepted rfl met
    exact met
  · exact holds

theorem conclude_succeeds (holds : account.Holds zone origin now)
    (accepting : ∀ moment,
      (account.registry.deliver ⟨zone.id, status, serial⟩ moment).1 = .ok ()) :
    Succeeds manager (fun later _ => account.Concluded zone origin status serial later)
      (conclude policy zone status serial) now := by
  unfold conclude
  apply Succeeds.bind (.lift (measure_keeps holds _))
  intro later measured kept
  apply Succeeds.bind (.lift (deliver_keeps kept accepting))
  rintro last accepted ⟨rfl, moment, reported⟩
  exact (clearRows_succeeds reported).weaken fun final _ cleared => ⟨moment, cleared⟩

end Reports

theorem readRows_succeeds (holds : account.Holds zone origin now) :
    Succeeds manager (fun later rows => ⟨.readRows zone.key, .ok rows⟩ ∈ later.past ∧
        rows.map shown = account.content ∧ account.Holds zone origin later)
      (readRows zone.key) now := by
  apply solo_performs_plain rfl
  intro reply left answer
  obtain ⟨⟨rows, rfl, shows⟩, kept⟩ := holds.read answer
  exact ⟨List.mem_cons_self, shows, kept⟩

/-- A decision is the verdict on the rows that were read, and is concluded when it is final. -/
structure Decided (pool : Pool) (zone : Zone) (origin : Status.Memory) (account : Account)
    (concluded : Status → UInt32 → Situation → Prop) (now : Situation) (verdict : Verdict)
    (rows : List StatusRecord) : Prop where
  read : ⟨.readRows zone.key, .ok rows⟩ ∈ now.past
  shows : rows.map shown = account.content
  same : verdict = pool.verdict zone.serial rows
  unreported : verdict.report? = none → account.Holds zone origin now
  reported : ∀ status serial, verdict.report? = some (status, serial) →
    concluded status serial now

theorem decide_parts {concluded : Status → UInt32 → Situation → Prop}
    (holds : account.Holds zone origin now)
    (concludes : ∀ status serial later, account.Holds zone origin later →
      Succeeds manager (fun last _ => concluded status serial last)
        (conclude policy zone status serial) later) :
    Succeeds manager (fun later verdict => ∃ rows,
        Decided pool zone origin account concluded later verdict rows)
      (decide policy pool zone) now := by
  unfold decide
  apply Succeeds.bind (readRows_succeeds holds)
  rintro later rows ⟨performed, shows, kept⟩
  cases report : (pool.verdict zone.serial rows).report? with
  | none =>
      dsimp only
      rw [report]
      exact .pure ⟨rows, performed, shows, rfl, fun _ => kept,
        fun _ _ reported => nomatch report.symm.trans reported⟩
  | some reported =>
      obtain ⟨status, serial⟩ := reported
      dsimp only
      rw [report]
      apply Succeeds.bind (concludes status serial later kept).grows
      rintro last _ ⟨concluded, longer⟩
      refine .pure ⟨rows, longer.mem performed, shows, rfl,
        (fun unreported => nomatch report.symm.trans unreported), ?_⟩
      intro other otherSerial reported
      cases report.symm.trans reported
      exact concluded

theorem decide_keeps (holds : account.Holds zone origin now)
    (accepting : Accepting account.registry zone) :
    Succeeds manager (fun later verdict => ∃ rows,
        Decided pool zone origin account (account.Concluded zone origin) later verdict rows)
      (decide policy pool zone) now :=
  decide_parts holds fun status serial _later kept =>
    conclude_succeeds kept (accepting status serial)

theorem decide_succeeds (holds : account.Holds zone origin now)
    (accepting : Accepting account.registry zone)
    (settled : Settled pool zone account.content account.arrived) :
    Succeeds manager (fun later verdict =>
        verdict.status = answeredStatus pool account.arrived ∧
          ∃ serial, account.Concluded zone origin verdict.status serial later)
      (decide policy pool zone) now := by
  apply (decide_keeps holds accepting).weaken
  rintro later verdict ⟨rows, -, shows, rfl, -, concluded⟩
  rw [← shows] at settled
  have decided := verdict_of_settled settled
  refine ⟨decided, ?_⟩
  cases report : (pool.verdict zone.serial rows).report? with
  | none =>
      rw [Verdict.report_eq_none_iff.mp report] at decided
      exact absurd decided.symm (answeredStatus_ne_pending pool _)
  | some reported =>
      obtain ⟨status, serial⟩ := reported
      rw [Verdict.status_of_report report]
      exact ⟨serial, concluded status serial report⟩

private theorem turn_keeps (effect : Effect) (turning : turnsLocks effect = true)
    (free : ∀ lock, effect = .acquire lock → account.held = [])
    (holds : account.Holds zone origin now) :
    (solo manager unexpired).Along (fun later _ => Account.Holds zone origin
        { account with held := heldAfter account.held effect } later) (perform effect) now := by
  cases effect with
  | enter _ | acquire _ | release _ | retire _ _ | leave _ =>
      apply solo_performs rfl
      · intro lock waits
        rw [LockTable.isFree, holds.held, free lock waits]
        rfl
      · intro work waits
        cases waits
      · intro reply left answer
        exact holds.following answer ⟨rfl, rfl⟩
  | _ => cases turning

/-- Work under the lock of a key, of which only what was performed may tell afterwards. -/
theorem locked_holds {α : Type} {key : ActionKey} {work : Program α}
    (goal : List Event → α → Account → Prop)
    (stays : ∀ past longer value account, past <:+ longer → goal past value account →
      goal longer value account)
    (holds : account.Holds zone origin now) (free : account.held = [])
    (works : ∀ lock later, Account.Holds zone origin { account with held := [lock] } later →
      (solo manager unexpired).Along (fun last value => ∃ account', goal last.past value account' ∧
        Account.Holds zone origin { account' with held := [lock] } last) work later) :
    (solo manager unexpired).Along (fun later value => ∃ account', goal later.past value account' ∧
        Account.Holds zone origin { account' with held := [] } later) (locked key work) now := by
  unfold locked
  apply Conduct.Along.bind (turn_keeps (.enter key) rfl (fun _ waits => nomatch waits) holds)
  intro entered lock opened
  apply Conduct.Along.bind (turn_keeps (.acquire lock) rfl (fun _ _ => free) opened)
  intro acquired _ held
  rw [free] at held
  apply Conduct.Along.bind (works lock acquired held)
  rintro worked value ⟨next, met, kept⟩
  apply Conduct.Along.bind
    (solo_grows (turn_keeps (.release lock) rfl (fun _ waits => nomatch waits) kept))
  rintro released _ ⟨freed, first⟩
  apply Conduct.Along.bind
    (solo_grows (turn_keeps (.retire key lock) rfl (fun _ waits => nomatch waits) freed))
  rintro retired _ ⟨dropped, second⟩
  apply Conduct.Along.bind
    (solo_grows (turn_keeps (.leave lock) rfl (fun _ waits => nomatch waits) dropped))
  rintro left _ ⟨done, third⟩
  have released : heldAfter [lock] (.release lock) = [] := by
    simp [heldAfter]
  have longer := (first.trans second).trans third
  refine .pure fun last unmoved => unmoved ▸ ⟨next, stays _ _ value next longer met, ?_⟩
  rwa [released] at done

theorem locked_keeps {α : Type} {key : ActionKey} {work : Program α} (goal : α → Account → Prop)
    (holds : account.Holds zone origin now) (free : account.held = [])
    (works : ∀ lock later, Account.Holds zone origin { account with held := [lock] } later →
      (solo manager unexpired).Along (fun last value => ∃ account', goal value account' ∧
        Account.Holds zone origin { account' with held := [lock] } last) work later) :
    (solo manager unexpired).Along (fun later value => ∃ account', goal value account' ∧
        Account.Holds zone origin { account' with held := [] } later) (locked key work) now :=
  locked_holds (fun _ => goal) (fun _ _ _ _ _ met => met) holds free works

theorem lockedDecide_succeeds (holds : account.Holds zone origin now) (free : account.held = [])
    (accepting : Accepting account.registry zone)
    (settled : Settled pool zone account.content account.arrived) :
    Succeeds manager (fun later verdict =>
        verdict.status = answeredStatus pool account.arrived ∧
          ∃ serial, account.Concluded zone origin verdict.status serial later)
      (ExceptT.mk (locked zone.key (decide policy pool zone).run)) now := by
  apply Conduct.Along.weaken (locked_keeps (fun outcome next => ∃ verdict serial moment,
      outcome = .ok verdict ∧ verdict.status = answeredStatus pool account.arrived ∧
        next = { account.reported zone verdict.status serial moment with content := [] })
    holds free ?_)
  · rintro later outcome ⟨_, ⟨verdict, serial, moment, rfl, status, rfl⟩, kept⟩
    have unlocked : account = { account with held := [] } := by
      rw [← free]
    refine ⟨status, serial, moment, ?_⟩
    rw [unlocked]
    exact kept
  · intro lock later held
    apply Conduct.Along.weaken (decide_succeeds held accepting settled)
    rintro last (fault | verdict) met
    · cases met
    · obtain ⟨status, serial, moment, concluded⟩ := met
      exact ⟨_, ⟨verdict, serial, moment, rfl, status, rfl⟩, concluded⟩

end Steps

end Propagation

end ZonePropagation
