import ZonePropagation.Proofs.Interleaving.Law
import ZonePropagation.Proofs.Propagation.Polling
import ZonePropagation.Proofs.Quorum.Serials
/-!
What the success of a zone rests on.

A report of success carries the verdict of a pool over rows that were read, and a row of success
the answer of its nameserver or a result that came from outside.  Both hold of everything that the
programs of a manager ever perform, whatever others perform in between.
-/

namespace ZonePropagation

/-- The zone as one that waits for what its verification confirms. -/
def Zone.effective (zone : Zone) : Zone := { zone with action := zone.action.effective }

theorem Zone.effective_effective (zone : Zone) : zone.effective.effective = zone.effective := by
  unfold Zone.effective ZoneAction.effective
  cases zone.action <;> rfl

namespace Propagation

open Interleaving

abbrev Outsiders := Zone → Nameserver → Status → Option UInt32 → Prop

/-- A nameserver answered a question for the zone as its action asks for, and this serial goes with
the answer. -/
def Answered (past : List Event) (zone : Zone) (server : Nameserver) (serial : Option UInt32) :
    Prop :=
  ∃ options found, ⟨.probe .question zone.name server options, found⟩ ∈ past ∧
    Finding.ofProbe zone.action zone.serial found = .arrived ∧
      serial = arrivedSerial zone.action found

/-- A nameserver answered for one of the copies that were worked on under the key. -/
def Observed (worked : Zone → Prop) (past : List Event) (key : ActionKey) (server : Nameserver)
    (serial : Option UInt32) : Prop :=
  ∃ zone : Zone, worked zone ∧ zone.key = key ∧ Answered past zone server serial

def Reported (worked : Zone → Prop) (outsiders : Outsiders) (past : List Event) (key : ActionKey)
    (server : Nameserver) (serial : Option UInt32) : Prop :=
  Observed worked past key server serial ∨
    ∃ zone : Zone, zone.effective.key = key ∧ outsiders zone server .success serial

/-- The verdict of a zone's pool over rows of the zone that were read. -/
def Judged (manager : Manager) (past : List Event) (zone : Zone) (verdict : Verdict) : Prop :=
  ∃ pool rows, manager.topology.get? zone.poolId = some pool ∧
    ⟨.readRows zone.key, .ok rows⟩ ∈ past ∧ pool.verdict zone.serial rows = verdict

/-- Enough nameservers of a zone's pool have rows of success that were read, at a serial or a newer
one. -/
def Confirmed (manager : Manager) (past : List Event) (zone : Zone) (serial : UInt32) : Prop :=
  ∃ pool rows, manager.topology.get? zone.poolId = some pool ∧
    ⟨.readRows zone.key, .ok rows⟩ ∈ past ∧
      pool.required ≤ rows.countP fun row =>
        pool.hasNameserver row.nameserver && Quorum.reaches zone.serial serial row

theorem Judged.confirmed {manager : Manager} {past : List Event} {zone : Zone} {serial : UInt32}
    (judged : Judged manager past zone (.success serial)) : Confirmed manager past zone serial := by
  obtain ⟨pool, rows, found, read, reached⟩ := judged
  refine ⟨pool, rows, found, read, ?_⟩
  have enough := (Quorum.evaluate_success_serial reached).2
  rw [List.countP_filter] at enough
  refine enough.trans (List.countP_mono_left ?_)
  intro row _member held
  rw [Bool.and_comm]
  exact held

/-- Success is neither reported nor written without evidence, and only for a copy that is worked
on. -/
def evidence (manager : Manager) (outsiders : Outsiders) (worked : Zone → Prop) : Law where
  allows past
    | .deliver report => report.status = .success → ∃ zone, worked zone ∧
        zone.id = report.zoneId ∧ Judged manager past zone (.success report.serial)
    | .storeRow key server status serial => status = .success →
        Reported worked outsiders past key server serial
    | _ => True
  permits
    | .verify zone _ => worked zone
    | .verifyDetached zone _ => worked zone.effective
    | .record zone server status serial =>
        worked zone.effective ∧ outsiders zone server status serial
    | .propagate zone action =>
        worked { zone with action } ∧ worked { zone with action := action.effective }
    | .recover zone => worked zone.effective
    | .timer _ _ => ∀ zone, worked zone
    | _ => True

section Later

variable {worked : Zone → Prop} {past rest : List Event} {key : ActionKey} {zone : Zone}
  {server : Nameserver} {serial : Option UInt32}

theorem Answered.later (answered : Answered past zone server serial) (more : past <:+ rest) :
    Answered rest zone server serial := by
  obtain ⟨options, found, asked, arrived, sameSerial⟩ := answered
  exact ⟨options, found, more.mem asked, arrived, sameSerial⟩

theorem Answered.effective (answered : Answered past zone server serial) :
    Answered past zone.effective server serial := by
  obtain ⟨options, found, asked, arrived, sameSerial⟩ := answered
  refine ⟨options, found, asked, ?_, ?_⟩
  · rw [← arrived]
    unfold Zone.effective ZoneAction.effective Finding.ofProbe
    cases zone.action with
    | none => cases found.outcome <;> rfl
    | _ => rfl
  · rw [sameSerial]
    unfold Zone.effective ZoneAction.effective
    cases zone.action <;> rfl

theorem Observed.later (observed : Observed worked past key server serial)
    (more : past <:+ rest) : Observed worked rest key server serial := by
  obtain ⟨zone, inside, sameKey, answered⟩ := observed
  exact ⟨zone, inside, sameKey, answered.later more⟩

theorem Reported.later {outsiders : Outsiders}
    (reported : Reported worked outsiders past key server serial) (more : past <:+ rest) :
    Reported worked outsiders rest key server serial := by
  rcases reported with observed | outside
  · exact .inl (observed.later more)
  · exact .inr outside

theorem Judged.later {manager : Manager} {verdict : Verdict}
    (judged : Judged manager past zone verdict) (more : past <:+ rest) :
    Judged manager rest zone verdict := by
  obtain ⟨pool, rows, found, read, same⟩ := judged
  exact ⟨pool, rows, found, more.mem read, same⟩

end Later

section Programs

variable {manager : Manager} {outsiders : Outsiders} {worked : Zone → Prop} {past : List Event}

private abbrev anything {α : Type} : List Event → α → Prop := fun _ _ => True

private theorem quiet {effect : Effect}
    (allowed : ∀ past, (evidence manager outsiders worked).allows past effect)
    (permitted : ∀ operation ∈ handedOut effect,
      (evidence manager outsiders worked).permits operation) :
    (evidence manager outsiders worked).Shows anything (perform effect) past :=
  (Law.performs (fun later _ => allowed later) permitted).binds

private theorem measures (thing : Measure) :
    (evidence manager outsiders worked).Shows anything (measure thing) past :=
  quiet (fun _ => trivial) (by simp [handedOut])

theorem clearRows_evident (key : ActionKey) :
    (evidence manager outsiders worked).Tries anything (clearRows key) past :=
  (Law.performs (fun _ _ => trivial) (by simp [handedOut])).weaken fun _ reply _ => by
    cases reply <;> trivial

theorem storeRow_evident {key : ActionKey} {server : Nameserver} {status : Status}
    {serial : Option UInt32}
    (reported : status = .success → Reported worked outsiders past key server serial) :
    (evidence manager outsiders worked).Tries anything
      (storeRow key server status serial) past := by
  refine Conduct.Along.weaken (Law.performs ?_ (by simp [handedOut])) ?_
  · intro later more success
    exact (reported success).later more
  · intro later reply _performed
    cases reply <;> trivial

theorem readRows_evident (key : ActionKey) :
    (evidence manager outsiders worked).Tries (fun later rows => ⟨.readRows key, .ok rows⟩ ∈ later)
      (readRows key) past := by
  refine Conduct.Along.weaken (Law.performs (fun _ _ => trivial) (by simp [handedOut])) ?_
  intro later reply performed
  cases reply with
  | ok rows => exact performed
  | error fault => trivial

theorem locked_evident {α : Type} {key : ActionKey} {work : Program α}
    {shows : List Event → α → Prop}
    (stable : ∀ now later value, now <:+ later → shows now value → shows later value)
    (bound : ∀ later, past <:+ later → (evidence manager outsiders worked).Shows shows work later) :
    (evidence manager outsiders worked).Shows shows (locked key work) past := by
  unfold locked
  refine Law.Shows.bind (quiet (fun _ => trivial) (by simp [handedOut])) ?_
  intro entered lock afterEnter _
  refine Law.Shows.bind (quiet (fun _ => trivial) (by simp [handedOut])) ?_
  intro acquired _ afterAcquire _
  refine Law.Shows.bind (bound acquired (afterEnter.trans afterAcquire)) ?_
  intro worked value _ shown
  refine Law.Shows.bind (quiet (fun _ => trivial) (by simp [handedOut])) ?_
  intro released _ afterRelease _
  refine Law.Shows.bind (quiet (fun _ => trivial) (by simp [handedOut])) ?_
  intro retired _ afterRetire _
  refine Law.Shows.bind (quiet (fun _ => trivial) (by simp [handedOut])) ?_
  intro left _ afterLeave _
  refine Law.Shows.pure fun later more => ?_
  exact stable worked later value
    (afterRelease.trans (afterRetire.trans (afterLeave.trans more))) shown

theorem deliver_evident {policy : VerificationPolicy} {zone : Zone} {status : Status}
    {serial : UInt32}
    (judged : status = .success → worked zone ∧ Judged manager past zone (.success serial)) :
    (evidence manager outsiders worked).Shows anything
      (deliver policy zone status serial) past := by
  have delivered : (evidence manager outsiders worked).Shows (fun later _ => past <:+ later)
      (deliver policy zone status serial) past := by
    apply Conduct.Along.deliver (past <:+ ·)
    · intro now more
      have tried : (evidence manager outsiders worked).Shows
          (fun later reply => ⟨.deliver ⟨zone.id, status, serial⟩, reply⟩ ∈ later)
          (perform (.deliver ⟨zone.id, status, serial⟩)) now := by
        refine Law.performs ?_ (by simp [handedOut])
        intro later further success
        exact ⟨zone, (judged success).1, rfl, (judged success).2.later (more.trans further)⟩
      exact tried.grown.weaken fun later _ met => more.trans met.1
    · intro millis now more
      have paused : (evidence manager outsiders worked).Shows anything
          (perform (.pauseUpTo millis)) now :=
        quiet (fun _ => trivial) (by simp [handedOut])
      exact paused.grown.weaken fun later _ met => more.trans met.1
    · intro now more
      exact (measures _).grown.weaken fun later _ met => more.trans met.1
    · exact fun now later accepted further more => more.trans further
    · exact List.suffix_refl past
  exact delivered.binds

theorem conclude_evident {policy : VerificationPolicy} {zone : Zone} {status : Status}
    {serial : UInt32}
    (judged : status = .success → worked zone ∧ Judged manager past zone (.success serial)) :
    (evidence manager outsiders worked).Tries anything
      (conclude policy zone status serial) past := by
  unfold conclude
  refine Law.Tries.bind (Law.Tries.lift (measures _) fun _ _ _ _ _ => trivial) ?_
  intro measured _ more _
  refine Law.Tries.bind (Law.Tries.lift (deliver_evident fun success =>
    ⟨(judged success).1, (judged success).2.later more⟩) fun _ _ _ _ _ => trivial) ?_
  intro delivered accepted _ _
  split
  · exact clearRows_evident zone.key
  · exact Law.Tries.pure fun _ _ => trivial

theorem decide_evident {policy : VerificationPolicy} {pool : Pool} {zone : Zone}
    (mine : worked zone) (found : manager.topology.get? zone.poolId = some pool) :
    (evidence manager outsiders worked).Tries anything (decide policy pool zone) past := by
  unfold decide
  refine Law.Tries.bind (readRows_evident zone.key) ?_
  intro later rows _ read
  cases outcome : pool.verdict zone.serial rows with
  | success serial =>
      refine Law.Tries.bind (conclude_evident fun _ => ?_) fun _ _ _ _ =>
        Law.Tries.pure fun _ _ => trivial
      exact ⟨mine, pool, rows, found, read, outcome⟩
  | error serial =>
      refine Law.Tries.bind (conclude_evident fun success => ?_) fun _ _ _ _ =>
        Law.Tries.pure fun _ _ => trivial
      cases success
  | pending _ _ _ => exact Law.Tries.pure fun _ _ => trivial

theorem probe_evident (kind : ProbeKind) (zone : Zone) (server : Nameserver)
    (options : ProbeOptions) :
    (evidence manager outsiders worked).Shows
      (fun later found => ⟨.probe kind zone.name server options, found⟩ ∈ later)
      (probe kind zone server options) past := by
  unfold probe
  refine Law.Shows.bind (Law.performs (fun _ _ => trivial) (by simp [handedOut])) ?_
  intro asked found _ performed
  refine Law.Shows.bind (measures _) ?_
  intro measured _ more _
  exact Law.Shows.pure fun later further => further.mem (more.mem performed)

theorem ask_evident {options : ProbeOptions} {zone : Zone} {server : Nameserver}
    {further budget : Nat} :
    (evidence manager outsiders worked).Shows
      (fun later result => result.1 = .success → Answered later zone server result.2)
      (ask options zone server further budget) past := by
  induction further using Nat.strongRecOn generalizing past budget with
  | ind further ih =>
      unfold ask
      refine Law.Shows.bind (probe_evident .question zone server _) ?_
      intro asked found _ performed
      split
      · next arrived =>
          refine Law.Shows.pure fun later more _ => ?_
          exact ⟨_, found, more.mem performed, arrived, rfl⟩
      · exact Law.Shows.pure fun _ _ success => by cases success
      · cases further with
        | zero => exact Law.Shows.pure fun _ _ success => by cases success
        | succ further =>
            dsimp only
            split
            · exact Law.Shows.pure fun _ _ success => by cases success
            · refine Law.Shows.bind (quiet (fun _ => trivial) (by simp [handedOut])) ?_
              intro paused _ _ _
              exact ih further (Nat.lt_succ_self further)

theorem verifyServer_evident {policy : VerificationPolicy} {zone : Zone} {server : Nameserver} :
    (evidence manager outsiders worked).Shows
      (fun later result => result.1 = .success → Answered later zone server result.2)
      (verifyServer policy zone server) past := by
  have polled : ∀ past, (evidence manager outsiders worked).Shows
      (fun later result => result.1 = .success → Answered later zone server result.2)
      (poll policy zone server) past := by
    intro past
    unfold poll
    refine Law.Shows.bind (quiet (fun _ => trivial) (by simp [handedOut])) ?_
    intro delayed _ _ _
    split
    · exact ask_evident
    · have announced : (evidence manager outsiders worked).Shows anything
          (discard (probe .announcement zone server policy.probe)) delayed :=
        Law.Shows.bind (probe_evident .announcement zone server policy.probe)
          fun _ _ _ _ => Law.Shows.pure fun _ _ => trivial
      exact Law.Shows.bind announced fun _ _ _ _ => ask_evident
  unfold verifyServer
  refine Law.Shows.bind (measures _) ?_
  intro started _ _ _
  refine Law.Shows.bind (polled started) ?_
  intro asked result _ observed
  refine Law.Shows.bind (measures _) ?_
  intro measured _ more _
  exact Law.Shows.pure fun later further success =>
    (observed success).later (more.trans further)

theorem pool_evident (zone : Zone) :
    (evidence manager outsiders worked).Tries
      (fun _ pool => manager.topology.get? zone.poolId = some pool) (manager.pool zone) past := by
  refine Law.Shows.pure fun later _ => ?_
  unfold Topology.get
  cases manager.topology.get? zone.poolId with
  | none => trivial
  | some pool => rfl

theorem record_evident {zone : Zone} {server : Nameserver} {status : Status}
    {serial : Option UInt32} (mine : worked zone.effective)
    (reported : status = .success →
      Reported worked outsiders past zone.effective.key server serial) :
    (evidence manager outsiders worked).Tries anything (manager.record zone server status serial)
      past := by
  unfold Manager.record
  refine Law.Tries.bind (pool_evident zone) ?_
  intro later pool more found
  dsimp only
  split
  · exact Law.Tries.pure fun _ _ => trivial
  · refine locked_evident (fun _ _ result _ _ => by cases result <;> trivial) ?_
    intro entered further
    refine Law.Tries.bind (readRows_evident _) ?_
    intro read rows afterRead _
    split
    · exact Law.Tries.pure fun _ _ => trivial
    · refine Law.Tries.bind (storeRow_evident ?_) ?_
      · intro success
        exact (reported success).later (more.trans (further.trans afterRead))
      · intro stored _ _ _
        exact Law.Tries.bind (decide_evident mine found) fun _ _ _ _ =>
          Law.Tries.pure fun _ _ => trivial

private theorem hands {work : List Operation} {width : Nat}
    (permitted : ∀ operation ∈ work, (evidence manager outsiders worked).permits operation) :
    (evidence manager outsiders worked).Shows anything (perform (.fork width work)) past :=
  quiet (fun _ => trivial) permitted

theorem verify_evident {policy : VerificationPolicy} {pool : Pool} {zone : Zone}
    (mine : worked zone) (pending : worked zone.effective)
    (found : manager.topology.get? zone.poolId = some pool) :
    (evidence manager outsiders worked).Tries anything (verify policy pool zone) past := by
  unfold verify
  refine Law.Tries.bind (Law.Tries.forM ?_) ?_
  · intro server _member now
    exact storeRow_evident fun success => by cases success
  intro prepared _ _ _
  split
  · refine Law.Tries.bind (Law.Tries.lift (quiet (fun _ => trivial) ?_) fun _ _ _ _ _ => trivial) ?_
    · intro operation handed
      obtain ⟨server, _member, rfl⟩ := List.mem_map.mp handed
      exact pending
    · exact fun _ _ _ _ => Law.Tries.pure fun _ _ => trivial
  · refine Law.Tries.bind (Law.Tries.lift (hands ?_) fun _ _ _ _ _ => trivial) ?_
    · intro operation handed
      obtain ⟨server, _member, rfl⟩ := List.mem_map.mp handed
      exact mine
    intro verified results _ _
    refine Law.Tries.bind (Law.Tries.forIn ?_) ?_
    · intro result _member now
      split
      · exact Law.Tries.bind (Law.Tries.throw _) fun _ _ _ impossible => impossible.elim
      · exact Law.Tries.pure fun _ _ => trivial
    intro collected _ _ _
    refine Law.Tries.bind (locked_evident ?_ fun _ _ => decide_evident mine found) ?_
    · exact fun _ _ result _ _ => by cases result <;> trivial
    · intro decided verdict _ _
      split <;> exact Law.Tries.pure fun _ _ => trivial

theorem giveUp_evident {policy : VerificationPolicy} {pool : Pool} {zone : Zone} :
    (evidence manager outsiders worked).Tries anything (giveUp policy pool zone) past := by
  unfold giveUp
  refine Law.Tries.bind (Law.Tries.forM ?_) ?_
  · intro server _member now
    exact storeRow_evident fun success => by cases success
  intro stored _ _ _
  exact Law.Tries.bind (conclude_evident fun success => by cases success)
    fun _ _ _ _ => Law.Tries.pure fun _ _ => trivial

theorem propagate_evident {zone : Zone} {action : ZoneAction} (mine : worked { zone with action })
    (pending : worked { zone with action := action.effective }) :
    (evidence manager outsiders worked).Tries anything (manager.propagate zone action) past := by
  unfold Manager.propagate
  refine Law.Tries.bind (pool_evident zone) ?_
  intro later pool _ found
  refine Law.Tries.bind (clearRows_evident _) ?_
  intro cleared _ _ _
  have dispatched : (evidence manager outsiders worked).Shows anything
      (dispatch pool { zone with action }) cleared := by
    refine Law.Shows.bind (hands ?_) fun _ _ _ _ => Law.Shows.pure fun _ _ => trivial
    intro operation handed
    obtain ⟨target, _member, rfl⟩ := List.mem_map.mp handed
    trivial
  refine Law.Tries.bind (Law.Tries.lift dispatched fun _ _ _ _ _ => trivial) ?_
  intro called accepted _ _
  split
  · exact giveUp_evident
  · refine Law.Tries.bind (Law.Tries.lift ?_ fun _ _ _ _ _ => trivial) fun _ _ _ _ =>
      verify_evident mine pending found
    · unfold announceToOthers
      split
      · exact Law.Shows.pure fun _ _ => trivial
      · refine Law.Shows.bind (hands ?_) fun _ _ _ _ => Law.Shows.pure fun _ _ => trivial
        intro operation handed
        obtain ⟨server, _member, rfl⟩ := List.mem_map.mp handed
        trivial

theorem recover_evident {zone : Zone} (mine : worked zone.effective) :
    (evidence manager outsiders worked).Tries anything (manager.recover zone) past := by
  unfold Manager.recover
  refine Law.Tries.bind (pool_evident zone) ?_
  intro later pool _ found
  have pending : worked zone.effective.effective := by
    rwa [Zone.effective_effective]
  exact Law.Tries.bind (clearRows_evident _) fun _ _ _ _ => verify_evident mine pending found

theorem findZones_evident (criterion : ZoneCriterion) :
    (evidence manager outsiders worked).Tries anything (findZones criterion) past :=
  (Law.performs (fun _ _ => trivial) (by simp [handedOut])).weaken fun _ reply _ => by
    cases reply <;> trivial

private theorem batch_evident {timer : Timer} {work : List Operation}
    (permitted : ∀ operation ∈ work, (evidence manager outsiders worked).permits operation) :
    (evidence manager outsiders worked).Shows anything (batch timer work) past := by
  unfold batch
  refine Law.Shows.bind (hands permitted) ?_
  intro done results _ _
  refine Law.Shows.bind (Law.Shows.forM fun result _ now => measures _) ?_
  exact fun _ _ _ _ => Law.Shows.pure fun _ _ => trivial

theorem tick_evident (all : ∀ zone, worked zone) (policy : ReconciliationPolicy) (timer : Timer) :
    (evidence manager outsiders worked).Tries anything (policy.tick timer) past := by
  cases timer with
  | recovery =>
      have found : (evidence manager outsiders worked).Tries anything policy.candidates past := by
        unfold ReconciliationPolicy.candidates
        refine Law.Tries.bind (findZones_evident _) ?_
        intro later failed _ _
        dsimp only
        split
        · exact Law.Tries.pure fun _ _ => trivial
        · refine Law.Tries.bind (Law.Tries.lift (quiet (fun _ => trivial) (by simp [handedOut]))
            fun _ _ _ _ _ => trivial) ?_
          intro read now _ _
          exact Law.Tries.bind (findZones_evident _) fun _ _ _ _ =>
            Law.Tries.pure fun _ _ => trivial
      change (evidence manager outsiders worked).Tries anything policy.recoverOnce past
      unfold ReconciliationPolicy.recoverOnce
      refine Law.Tries.bind found ?_
      intro later zones _ _
      refine Law.Tries.lift (batch_evident ?_) fun _ _ _ _ _ => trivial
      intro operation handed
      obtain ⟨zone, _member, rfl⟩ := List.mem_map.mp handed
      exact all _
  | sync =>
      have found : (evidence manager outsiders worked).Tries anything policy.syncZones past := by
        unfold ReconciliationPolicy.syncZones
        refine Law.Tries.bind (Law.Tries.lift (quiet (fun _ => trivial) (by simp [handedOut]))
          fun _ _ _ _ _ => trivial) ?_
        intro read now _ _
        exact Law.Tries.bind (findZones_evident _) fun _ _ _ _ => Law.Tries.pure fun _ _ => trivial
      have reaped : ∀ later, (evidence manager outsiders worked).Shows anything
          (ReconciliationPolicy.reapRows policy.statusTtl) later := by
        intro later
        exact Law.Shows.bind (quiet (fun _ => trivial) (by simp [handedOut])) fun _ _ _ _ =>
          Law.Shows.pure fun _ _ => trivial
      change (evidence manager outsiders worked).Tries anything policy.syncOnce past
      unfold ReconciliationPolicy.syncOnce
      refine Law.Tries.bind found ?_
      intro later zones _ _
      refine Law.Tries.bind (Law.Tries.lift (batch_evident ?_) fun _ _ _ _ _ => trivial) ?_
      · intro operation handed
        obtain ⟨zone, _member, rfl⟩ := List.mem_map.mp handed
        exact ⟨all _, all _⟩
      intro synced summary _ _
      exact Law.Tries.bind (Law.Tries.lift (reaped synced) fun _ _ _ _ _ => trivial)
        fun _ _ _ _ => Law.Tries.pure fun _ _ => trivial

theorem ticks_evident (all : ∀ zone, worked zone) (policy : ReconciliationPolicy) (timer : Timer)
    (rounds due : Nat) :
    (evidence manager outsiders worked).Shows anything (ticks policy timer rounds due) past := by
  induction rounds generalizing past due with
  | zero => exact Law.Shows.pure fun _ _ => trivial
  | succ rounds ih =>
      unfold ticks
      refine Law.Shows.bind (quiet (fun _ => trivial) (by simp [handedOut])) ?_
      intro woken goesOn _ _
      split
      · refine Law.Shows.bind (quiet (fun _ => trivial) (by simp [handedOut])) ?_
        intro read came _ _
        have ticked : (evidence manager outsiders worked).Shows anything
            (discard (policy.tick timer).run) read :=
          Law.Shows.bind (tick_evident all policy timer).binds fun _ _ _ _ =>
            Law.Shows.pure fun _ _ => trivial
        exact Law.Shows.bind ticked fun _ _ _ _ => ih _
      · exact Law.Shows.pure fun _ _ => trivial

/-- Whatever a manager does, success is neither reported nor written without evidence. -/
theorem evidence_kept (manager : Manager) (outsiders : Outsiders) (worked : Zone → Prop) :
    (evidence manager outsiders worked).Kept manager := by
  intro operation permitted past
  cases operation with
  | change target zone =>
      have changed : (evidence manager outsiders worked).Shows anything
          (Propagation.change target zone) past := by
        unfold Propagation.change
        refine Law.Shows.bind (quiet (fun _ => trivial) (by simp [handedOut])) ?_
        intro called reply _ _
        split
        · exact Law.Shows.pure fun _ _ => trivial
        · exact Law.Shows.bind (measures _) fun _ _ _ _ => Law.Shows.pure fun _ _ => trivial
      exact Law.Shows.bind changed fun _ _ _ _ => Law.Shows.pure fun _ _ => trivial
  | announce zone server =>
      have announced : (evidence manager outsiders worked).Shows anything
          (discard (probe .announcement zone server
            { manager.policy.probe with maxRetries := 1 })) past :=
        Law.Shows.bind (probe_evident .announcement zone server _) fun _ _ _ _ =>
          Law.Shows.pure fun _ _ => trivial
      exact Law.Shows.bind announced fun _ _ _ _ => Law.Shows.pure fun _ _ => trivial
  | verify zone server =>
      refine Law.Shows.bind verifyServer_evident ?_
      rintro later ⟨status, serial⟩ _ answered
      refine Law.Shows.bind (storeRow_evident fun success => .inl ?_).binds ?_
      · exact ⟨zone, permitted, rfl, answered success⟩
      exact fun _ _ _ _ => Law.Shows.pure fun _ _ => trivial
  | verifyDetached zone server =>
      refine Law.Shows.bind verifyServer_evident ?_
      rintro later ⟨status, serial⟩ _ answered
      refine Law.Shows.bind (record_evident permitted fun success => .inl ?_).binds ?_
      · exact ⟨zone.effective, permitted, rfl, (answered success).effective⟩
      · exact fun _ _ _ _ => Law.Shows.pure fun _ _ => trivial
  | record zone server status serial =>
      refine Law.Shows.bind (record_evident permitted.1 fun success => ?_).binds ?_
      · refine .inr ⟨zone, rfl, ?_⟩
        rw [← success]
        exact permitted.2
      · exact fun _ _ _ _ => Law.Shows.pure fun _ _ => trivial
  | propagate zone action =>
      exact Law.Shows.bind (propagate_evident permitted.1 permitted.2).binds fun _ _ _ _ =>
        Law.Shows.pure fun _ _ => trivial
  | recover zone =>
      exact Law.Shows.bind (recover_evident permitted).binds fun _ _ _ _ =>
        Law.Shows.pure fun _ _ => trivial
  | timer timer policy =>
      have ran : (evidence manager outsiders worked).Shows anything (runTimer policy timer) past :=
        Law.Shows.bind (quiet (fun _ => trivial) (by simp [handedOut])) fun _ _ _ _ =>
          ticks_evident permitted policy timer _ _
      exact Law.Shows.bind ran fun _ _ _ _ => Law.Shows.pure fun _ _ => trivial
  | stopAfter millis =>
      refine Law.Shows.bind (quiet (fun _ => trivial) (by simp [handedOut])) ?_
      intro paused _ _ _
      refine Law.Shows.bind (quiet (fun _ => trivial) (by simp [handedOut])) ?_
      exact fun _ _ _ _ => Law.Shows.pure fun _ _ => trivial

theorem evidence_obeyed {may : Operation → Prop} {initial : Surroundings} {world : World}
    (permitted : ∀ operation, may operation → (evidence manager outsiders worked).permits operation)
    (run : World.Reaches manager may (.opening initial) world) :
    (evidence manager outsiders worked).Obeyed world.now.past :=
  (Law.Holds.reaches (evidence_kept manager outsiders worked) permitted run
    (Law.Holds.opening _ initial)).obeyed

end Programs

end Propagation

end ZonePropagation
