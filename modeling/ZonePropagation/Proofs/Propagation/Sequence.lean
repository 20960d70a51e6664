import ZonePropagation.Proofs.Propagation.Order
/-!
Attempts keep to the order of their effects.

Up to the rows of the nameservers an attempt is one line of work, with targets and other servers
asked side by side.  From there on all its strands only verify nameservers, or close the attempt.
-/

namespace ZonePropagation.Propagation

open Interleaving

def IsVerification (pool : Pool) (zone : Zone) (operation : Operation) : Prop :=
  ∃ server ∈ pool.nameservers, operation = .verify zone server ∨
    operation = .verifyDetached zone server

/-- An effect of the verification of a pool: no target is asked, and no server outside the pool is
verified or told. -/
def IsVerifying (pool : Pool) (zone : Zone) : Effect → Prop
  | .callBackend _ _ _ => False
  | .storeRow _ server _ _ => server ∈ pool.nameservers
  | .probe kind _ server _ =>
      server ∈ pool.nameservers ∧ (kind = .announcement → zone.action ≠ .delete)
  | .fork _ work | .detach work => ∀ operation ∈ work, IsVerification pool zone operation
  | _ => True

namespace IsVerifying

variable {pool : Pool} {zone : Zone} {effect : Effect}

theorem asksTarget_eq (verifying : IsVerifying pool zone effect) (target : String) :
    asksTarget target effect = false := by
  cases effect with
  | callBackend _ _ _ => cases verifying
  | _ => rfl

theorem unaccepted {reply : Reply effect} (verifying : IsVerifying pool zone effect) :
    isAcceptance ⟨effect, reply⟩ = false := by
  cases effect with
  | callBackend _ _ _ => cases verifying
  | _ => rfl

theorem member_of_announcesTo {server : Nameserver} (verifying : IsVerifying pool zone effect)
    (tells : announcesTo server effect = true) : server ∈ pool.nameservers := by
  cases effect with
  | probe kind _ asked _ =>
      cases kind with
      | announcement =>
          rw [← beq_iff_eq.mp tells]
          exact verifying.1
      | question => cases tells
  | _ => cases tells

end IsVerifying

abbrev Verifies {α : Type} (pool : Pool) (zone : Zone) (program : Program α) : Prop :=
  Only (IsVerifying pool zone) program

/-- An effect of an attempt that gives up: no server is asked or told, and no work is handed out. -/
def IsClosing (pool : Pool) (zone : Zone) (effect : Effect) : Prop :=
  IsVerifying pool zone effect ∧ isWire effect = false ∧ handedOut effect = []

section Programs

variable {manager : Manager} {policy : VerificationPolicy} {pool : Pool} {zone : Zone}
  {server : Nameserver}

theorem Concludes.closes {α : Type} {copy : Zone} {program : Program α}
    (concludes : Concludes copy program) : Only (IsClosing pool zone) program := by
  apply Only.weaken concludes
  intro effect concluding
  cases effect with
  | readRows _ | clearRows _ | deliver _ | measure _ | pauseUpTo _ => exact ⟨trivial, rfl, rfl⟩
  | _ => cases concluding

theorem Concludes.verifies {α : Type} {copy : Zone} {program : Program α}
    (concludes : Concludes copy program) : Verifies pool zone program := by
  have closes : Only (IsClosing pool zone) program := concludes.closes
  exact closes.weaken fun _ closing => closing.1

theorem verifyServer_verifies (member : server ∈ pool.nameservers) :
    Verifies pool zone (verifyServer policy zone server) := by
  apply (verifyServer_polls policy).weaken
  intro effect polling
  cases effect with
  | probe kind name asked options =>
      obtain ⟨rfl, announced⟩ := polling
      exact ⟨member, announced⟩
  | measure _ | pause _ => trivial
  | _ => cases polling

private theorem locked_verifies {α : Type} {key : ActionKey} {work : Program α}
    (within : Verifies pool zone work) : Verifies pool zone (locked key work) := by
  apply locked_only ?_ within
  intro effect turning
  cases effect with
  | enter _ | acquire _ | release _ | retire _ _ | leave _ => trivial
  | _ => cases turning

theorem record_verifies (member : server ∈ pool.nameservers) (status : Status)
    (serial : Option UInt32) :
    Verifies pool zone (manager.record zone server status serial).run := by
  unfold Manager.record
  have looked : Verifies pool zone (manager.pool zone).run := .pure _
  apply looked.tries
  intro found
  dsimp only
  split
  · exact .pure _
  · apply locked_verifies
    have read : Verifies pool zone
        (readRows { zone with action := zone.action.effective }.key).run := .perform trivial
    apply read.tries
    intro rows
    split
    · exact .pure _
    · have stored : Verifies pool zone
          (storeRow { zone with action := zone.action.effective }.key server status serial).run :=
        .perform member
      exact stored.tries fun _ => decide_concludes.verifies.tries fun _ => .pure _

theorem verification_verifies {operation : Operation}
    (verified : IsVerification pool zone operation) :
    Verifies pool zone (manager.program operation) := by
  obtain ⟨server, member, rfl | rfl⟩ := verified
  · apply (verifyServer_verifies member).bind
    rintro ⟨status, serial⟩
    have stored : Verifies pool zone (storeRow zone.key server status serial).run :=
      .perform member
    exact stored.bind fun _ => .pure _
  · apply (verifyServer_verifies member).bind
    rintro ⟨status, serial⟩
    exact (record_verifies member status serial).bind fun _ => .pure _

theorem handedOut_verifies {effect : Effect} (verifying : IsVerifying pool zone effect) :
    ∀ operation ∈ handedOut effect, Verifies pool zone (manager.program operation) := by
  intro operation handed
  cases effect with
  | fork _ _ | detach _ => exact verification_verifies (verifying operation handed)
  | _ => cases handed

private def verifyWritten (policy : VerificationPolicy) (pool : Pool) (zone : Zone) :
    Fallible Progress := do
  if policy.detached && !pool.nameservers.isEmpty then
    perform (.detach (pool.nameservers.map (.verifyDetached zone)))
    return .verifying
  let results ← sideBySide (pool.nameservers.map (.verify zone))
  for result in results do
    if let .stored (.error fault) := result then throw fault
  match ← ExceptT.mk (locked zone.key (decide policy pool zone).run) with
  | .pending _ _ _ => return .verifying
  | final => return .decided final.status

private theorem verify_eq (policy : VerificationPolicy) (pool : Pool) (zone : Zone) :
    verify policy pool zone =
      (pool.nameservers.forM fun server => storeRow zone.key server .pending none) >>= fun _ =>
        verifyWritten policy pool zone := rfl

private theorem verifyWritten_verifies :
    Verifies pool zone (verifyWritten policy pool zone).run := by
  unfold verifyWritten
  split
  · have handed : Verifies pool zone
        (perform (.detach (pool.nameservers.map (.verifyDetached zone)))) := by
      apply Only.perform
      intro operation member
      obtain ⟨server, inside, rfl⟩ := List.mem_map.mp member
      exact ⟨server, inside, .inr rfl⟩
    exact handed.lift.tries fun _ => .pure _
  · have verified : Verifies pool zone (sideBySide (pool.nameservers.map (.verify zone))) := by
      apply Only.perform
      intro operation member
      obtain ⟨server, inside, rfl⟩ := List.mem_map.mp member
      exact ⟨server, inside, .inl rfl⟩
    apply verified.lift.tries
    intro results
    refine (Only.triesForIn fun result _member => ?_).tries ?_
    · split
      · exact .pure _
      · exact .pure _
    intro _checked
    have decided : Verifies pool zone (locked zone.key (decide policy pool zone).run) :=
      locked_verifies decide_concludes.verifies
    apply decided.tries
    intro verdict
    split
    · exact .pure _
    · exact .pure _

private theorem storeRows_closes (status : Status) : Only (IsClosing pool zone)
    (pool.nameservers.forM fun server => storeRow zone.key server status none).run :=
  .triesForM fun _ member => .perform ⟨member, rfl, rfl⟩

theorem giveUp_closes : Only (IsClosing pool zone) (giveUp policy pool zone).run := by
  unfold giveUp
  apply (storeRows_closes .error).tries
  exact fun _ => conclude_concludes.closes.tries fun _ => .pure _

theorem verify_verifies : Verifies pool zone (verify policy pool zone).run := by
  rw [verify_eq]
  exact ((storeRows_closes .pending).weaken fun _ closing => closing.1).tries fun _ =>
    verifyWritten_verifies

private theorem pool_of_known (known : manager.topology.get? zone.poolId = some pool) :
    manager.pool zone = pure pool := by
  unfold Manager.pool Topology.get
  rw [known]
  rfl

/-- A recovery is a verification of the zone's pool, or fails for want of it. -/
theorem recover_verifies (manager : Manager) (zone : Zone) :
    ∃ pool, Verifies pool { zone with action := zone.action.effective }
      (manager.program (.recover zone)) := by
  cases known : manager.topology.get? zone.poolId with
  | none =>
      have unknown : manager.pool zone = throw (.poolNotFound zone.poolId) := by
        unfold Manager.pool Topology.get
        rw [known]
        rfl
      refine ⟨default, ?_⟩
      change Verifies default _ (Result.attempted <$> (manager.recover zone).run)
      unfold Manager.recover
      rw [unknown]
      exact .pure _
  | some pool =>
      have recovers : Verifies pool { zone with action := zone.action.effective }
          (manager.recover zone).run := by
        unfold Manager.recover
        rw [pool_of_known known, pure_bind]
        have cleared : Verifies pool { zone with action := zone.action.effective }
            (clearRows { zone with action := zone.action.effective }.key).run := .perform trivial
        exact cleared.tries fun _ => verify_verifies
      exact ⟨pool, recovers.bind fun _ => .pure _⟩

end Programs

/-! ### From the preparation of an attempt on -/

/-- All targets have been asked, and other servers told if the attempt goes on. -/
def Announced (pool : Pool) (zone : Zone) (past : List Event) : Prop :=
  (∀ target, timesAsked target past = pool.targets.countP (·.id == target)) ∧
    (GoesOn pool past → ToldOnce pool zone past)

/-- An attempt that has come so far goes on with effects of a kind only. -/
structure Onward (manager : Manager) (pool : Pool) (zone : Zone) (kind : Effect → Prop)
    (past : List Event) : Prop where
  obeyed : (order pool zone).Obeyed past
  due : ∀ effect, kind effect → ∀ later, past <:+ later → Due pool zone later effect
  verifying : ∀ effect, kind effect → IsVerifying pool zone effect
  handed : ∀ effect, kind effect → ∀ operation ∈ handedOut effect,
    Only kind (manager.program operation)
  told : (∃ fault, past = [⟨.clearRows zone.key, .error fault⟩] ∧ ∀ effect, ¬kind effect) ∨
    Announced pool zone past
  before : ∀ earlier, earlier <:+ past → HasVerified earlier → Announced pool zone earlier

def Handover (manager : Manager) (pool : Pool) (zone : Zone) (now : Situation) (strand : Strand) :
    Prop :=
  ∃ task kind, strand = .running task ∧ Only kind task ∧ Onward manager pool zone kind now.past

/-- Pending rows were written, one after the other. -/
def ArePending (pool : Pool) (zone : Zone) (rows : List Event) : Prop :=
  ∀ event ∈ rows, ∃ server ∈ pool.nameservers,
    event.effect = .storeRow zone.key server .pending none

section Handover

variable {manager : Manager} {others : Others} {pool : Pool} {zone : Zone} {past rows : List Event}
  {now : Situation}

private theorem Onward.of_uncleared {fault : Fault}
    (failed : past = [⟨.clearRows zone.key, .error fault⟩]) :
    Onward manager pool zone (fun _ => False) past where
  obeyed := by
    rw [failed]
    exact .cons (fun _ _ inside => nomatch List.suffix_nil.mp inside) trivial
  due := fun _ never => never.elim
  verifying := fun _ never => never.elim
  handed := fun _ never => never.elim
  told := .inl ⟨fault, failed, fun _ never => never⟩
  before := by
    rintro earlier part ⟨event, member, server, verified⟩
    rw [failed] at part
    rw [List.mem_singleton.mp (part.mem member)] at verified
    cases verified

private theorem Onward.of_refused (dispatched : Dispatched pool zone 0 past)
    (targets : pool.targets ≠ []) : Onward manager pool zone (IsClosing pool zone) past where
  obeyed := dispatched.obeyed
  due := by
    rintro effect ⟨verifying, offline, -⟩ later _more
    cases effect with
    | storeRow _ _ _ _ => exact verifying
    | callBackend _ _ _ => cases verifying
    | probe _ _ _ _ => cases offline
    | _ => trivial
  verifying := fun _ closing => closing.1
  handed := by
    rintro effect ⟨-, -, nothing⟩ operation handed
    rw [nothing] at handed
    cases handed
  told := by
    refine .inr ⟨dispatched.asked, ?_⟩
    rintro (none | accepted)
    · exact absurd none targets
    · rw [dispatched.accepted] at accepted
      cases accepted
  before := by
    rintro earlier part ⟨event, member, server, verified⟩
    rw [(dispatched.offline event (part.mem member)).2 server] at verified
    cases verified

section Pending

variable (prepared : Prepared pool zone past) (pending : ArePending pool zone rows)
include prepared pending

private theorem obeyed_pending : (order pool zone).Obeyed (rows ++ past) := by
  apply prepared.obeyed.append
  intro event between inside
  obtain ⟨server, member, same⟩ := pending event (inside.mem (by simp))
  rw [same]
  exact member

private theorem announced_pending : Announced pool zone (rows ++ past) := by
  constructor
  · intro target
    rw [timesAsked_append, prepared.asked, timesAsked_eq_zero, Nat.zero_add]
    intro event member
    obtain ⟨server, -, same⟩ := pending event member
    rw [same]
    rfl
  · intro _goesOn
    refine ⟨rows, past, rfl, prepared.told, prepared.unverified, ?_⟩
    intro event member server told
    obtain ⟨other, -, same⟩ := pending event member
    rw [same] at told
    cases told

private theorem announced_before {earlier : List Event} (part : earlier <:+ rows ++ past)
    (verified : HasVerified earlier) : Announced pool zone earlier := by
  rcases List.suffix_or_suffix_of_suffix part (List.suffix_append rows past) with
    within | ⟨some, rfl⟩
  · obtain ⟨event, member, server, verified⟩ := verified
    rw [prepared.unverified event (within.mem member) server] at verified
    cases verified
  · obtain ⟨others, same⟩ := part
    rw [← List.append_assoc] at same
    obtain rfl := List.append_cancel_right same
    exact announced_pending prepared fun event member => pending event (by simp [member])

private theorem Onward.of_unwritten : Onward manager pool zone (fun _ => False) (rows ++ past) where
  obeyed := obeyed_pending prepared pending
  due := fun _ never => never.elim
  verifying := fun _ never => never.elim
  handed := fun _ never => never.elim
  told := .inr (announced_pending prepared pending)
  before := fun _ part verified => announced_before prepared pending part verified

private theorem Onward.of_written (written : ∀ member ∈ pool.nameservers,
      (⟨.storeRow zone.key member .pending none, .ok ()⟩ : Event) ∈ rows) :
    Onward manager pool zone (IsVerifying pool zone) (rows ++ past) where
  obeyed := obeyed_pending prepared pending
  due := by
    intro effect verifying later more
    have goesOn : GoesOn pool later :=
      prepared.goesOn.later ((List.suffix_append _ _).trans more)
    cases effect with
    | storeRow _ _ _ _ => exact verifying
    | callBackend _ _ _ => cases verifying
    | probe kind name server options =>
        obtain ⟨member, announced⟩ := verifying
        cases kind with
        | announcement => exact ⟨goesOn, announced rfl, .inl member⟩
        | question =>
            exact ⟨goesOn, member, fun other inside =>
              more.mem (List.mem_append_left _ (written other inside))⟩
    | _ => trivial
  verifying := fun _ verifying => verifying
  handed := fun _ verifying => handedOut_verifies verifying
  told := .inr (announced_pending prepared pending)
  before := fun _ part verified => announced_before prepared pending part verified

end Pending

private theorem clearRows_along (fresh : now.past = []) : (amid manager anytime others).Tries
    (fun later _ => later.past = [⟨.clearRows zone.key, .ok ()⟩])
    (fun later fault => later.past = [⟨.clearRows zone.key, .error fault⟩])
    (clearRows zone.key) now := by
  apply amid_performs rfl
  intro later reply past
  rw [fresh] at past
  cases reply with
  | ok _ => exact past
  | error _ => exact past

private theorem ArePending.concat (pending : ArePending pool zone rows) {server : Nameserver}
    (member : server ∈ pool.nameservers) (reply : Except Fault Unit) :
    ArePending pool zone (rows ++ [⟨.storeRow zone.key server .pending none, reply⟩]) := by
  intro event among
  rcases List.mem_append.mp among with later | first
  · exact pending event later
  · rw [List.mem_singleton.mp first]
    exact ⟨server, member, rfl⟩

private theorem storeRow_along (server : Nameserver) : (amid manager anytime others).Tries
    (fun later _ =>
      later.past = ⟨.storeRow zone.key server .pending none, .ok ()⟩ :: now.past)
    (fun later fault =>
      later.past = ⟨.storeRow zone.key server .pending none, .error fault⟩ :: now.past)
    (storeRow zone.key server .pending none) now := by
  apply amid_performs rfl
  intro later reply past
  cases reply with
  | ok _ => exact past
  | error _ => exact past

private theorem storeRows_along {servers : List Nameserver}
    (inside : ∀ server ∈ servers, server ∈ pool.nameservers) : (amid manager anytime others).Tries
    (fun later _ => ∃ rows, later.past = rows ++ now.past ∧ ArePending pool zone rows ∧
      ∀ server ∈ servers, (⟨.storeRow zone.key server .pending none, .ok ()⟩ : Event) ∈ rows)
    (fun later _ => ∃ rows, later.past = rows ++ now.past ∧ ArePending pool zone rows)
    (servers.forM fun server => storeRow zone.key server .pending none) now := by
  have empty : ArePending pool zone [] := by simp [ArePending]
  induction servers generalizing now with
  | nil =>
      apply Conduct.Tries.pure
      intro later changed
      exact ⟨[], others.past changed, empty, by simp⟩
  | cons server servers ih =>
      have member := inside server (by simp)
      change (amid manager anytime others).Tries _ _
        (storeRow zone.key server .pending none >>= fun _ => servers.forM _) now
      refine Conduct.Tries.bind ((storeRow_along server).weaken (fun _ _ past => past) ?_) ?_ ?_
      · intro later fault past
        exact ⟨_, past, empty.concat member (.error fault)⟩
      · intro later _ past
        refine (ih fun other among => inside other (by simp [among])).weaken ?_ ?_
        · rintro last _ ⟨rows, lastPast, pending, written⟩
          refine ⟨_, ?_, pending.concat member (.ok ()), ?_⟩
          · rw [lastPast, past, List.append_assoc]
            rfl
          · intro other among
            rcases List.mem_cons.mp among with rfl | rest
            · exact List.mem_append_right _ (List.mem_singleton.mpr rfl)
            · exact List.mem_append_left _ (written other rest)
        · rintro last fault ⟨rows, lastPast, pending⟩
          refine ⟨_, ?_, pending.concat member (.ok ())⟩
          rw [lastPast, past, List.append_assoc]
          rfl
      · rintro before later fault changed ⟨rows, past, pending⟩
        exact ⟨rows, (others.past changed).trans past, pending⟩

private theorem lift_along {α : Type} {program : Program α} (shows : List Event → α → Prop)
    (along : (amid manager anytime others).Along (fun later value => shows later.past value)
      program now) :
    (amid manager anytime others).Tries (fun later value => shows later.past value)
      (fun _ _ => False) (liftM program : Fallible α) now := by
  apply Conduct.Tries.lift along
  intro before later value changed shown
  rw [others.past changed]
  exact shown

private theorem attempt_hands_over (known : manager.topology.get? zone.poolId = some pool)
    (action : ZoneAction) (fresh : now.past = []) :
    Strand.Arrives manager anytime others (Handover manager pool { zone with action }) now
      (.start manager (.propagate zone action)) := by
  have ended : ∀ later fault kind, Onward manager pool { zone with action } kind later.past →
      Strand.Arrives manager anytime others (Handover manager pool { zone with action }) later
        (.running (pure (.attempted (.error fault)))) :=
    fun later fault kind onward => .here ⟨_, kind, rfl, .pure _, onward⟩
  change Strand.Arrives manager anytime others _ now (.running
    ((manager.propagate zone action).run >>= fun outcome => pure (.attempted outcome)))
  unfold Manager.propagate
  rw [pool_of_known known, pure_bind]
  apply Strand.Arrives.tries
  apply Conduct.Tries.weaken (clearRows_along fresh)
  · intro cleared _ clearedPast
    apply Strand.Arrives.tries
    apply Conduct.Tries.weaken (lift_along
      (fun past accepted => Dispatched pool { zone with action } accepted past)
      (dispatch_along clearedPast))
    · intro asked accepted dispatched
      split
      · next refused =>
          simp only [Bool.and_eq_true, decide_eq_true_eq, Bool.not_eq_true',
            List.isEmpty_eq_false_iff] at refused
          obtain ⟨rfl, targets⟩ := refused
          exact .here ⟨_, _, rfl, giveUp_closes.bind fun _ => .pure _,
            .of_refused dispatched targets⟩
      · next accepting =>
          have goesOn : GoesOn pool asked.past := by
            by_cases targets : pool.targets = []
            · exact .inl targets
            · right
              rw [dispatched.accepted]
              simpa [targets] using accepting
          apply Strand.Arrives.tries
          apply Conduct.Tries.weaken (lift_along
            (fun past _ => Prepared pool { zone with action } past)
            (announceToOthers_along dispatched goesOn))
          · intro told _ prepared
            rw [verify_eq]
            apply Strand.Arrives.tries
            apply Conduct.Tries.weaken (storeRows_along fun _ member => member)
            · rintro stored _ ⟨rows, past, pending, written⟩
              refine .here ⟨_, _, rfl, verifyWritten_verifies.bind fun _ => .pure _, ?_⟩
              rw [past]
              exact .of_written prepared pending written
            · rintro stored fault ⟨rows, past, pending⟩
              apply ended stored fault
              rw [past]
              exact .of_unwritten prepared pending
          · exact fun _ _ never => never.elim
    · exact fun _ _ never => never.elim
  · intro later fault failed
    exact ended later fault _ (.of_uncleared failed)

section Later

variable {kind : Effect → Prop} {more : List Event}
  (onward : Onward manager pool zone kind past) (ofKind : ∀ event ∈ more, kind event.effect)
include onward ofKind

private theorem Onward.obeyed_later : (order pool zone).Obeyed (more ++ past) := by
  apply onward.obeyed.append
  intro event between inside
  exact onward.due _ (ofKind event (inside.mem (by simp))) _ (List.suffix_append _ _)

private theorem Onward.goesOn_of_later (goesOn : GoesOn pool (more ++ past)) :
    GoesOn pool past := by
  apply goesOn.imp_right
  rw [List.any_append, Bool.or_eq_true]
  rintro (later | earlier)
  · obtain ⟨event, member, accepted⟩ := List.any_eq_true.mp later
    rw [(onward.verifying _ (ofKind event member)).unaccepted] at accepted
    cases accepted
  · exact earlier

private theorem Onward.told_later :
    (∃ fault, more ++ past = [⟨.clearRows zone.key, .error fault⟩]) ∨
      Announced pool zone (more ++ past) := by
  rcases onward.told with ⟨fault, failed, nothing⟩ | ⟨asked, told⟩
  · left
    cases more with
    | nil => exact ⟨fault, failed⟩
    | cons event more => exact absurd (ofKind event (by simp)) (nothing event.effect)
  · refine .inr ⟨?_, ?_⟩
    · intro target
      rw [timesAsked_append, asked, timesAsked_eq_zero, Nat.zero_add]
      exact fun event member => (onward.verifying _ (ofKind event member)).asksTarget_eq target
    · intro goesOn
      obtain ⟨verification, preparation, rfl, once, unverified, members⟩ :=
        told (onward.goesOn_of_later ofKind goesOn)
      refine ⟨more ++ verification, preparation, by simp, once, unverified, ?_⟩
      intro event member server tells
      rcases List.mem_append.mp member with later | earlier
      · exact (onward.verifying _ (ofKind event later)).member_of_announcesTo tells
      · exact members event earlier server tells

end Later

end Handover

/-! ### Drivers -/

/-- Targets are called that have a driver, and no others. -/
def Reached (drivers : String → Bool) (past : List Event) : Prop :=
  ∀ event ∈ past, ∀ target, asksTarget target event.effect = true →
    calls target event = drivers target

section Drivers

variable {manager : Manager} {initial : Surroundings} {drivers : String → Bool}
  {past : List Event}

private theorem Reached.cons {timing : Timing} {before after : Surroundings} {effect : Effect}
    {reply : Reply effect} (reached : Reached drivers past)
    (same : ∀ target, hasDriver before target = drivers target)
    (answer : Answers timing before effect reply after) :
    Reached drivers (⟨effect, reply⟩ :: past) := by
  intro event member target asks
  rcases List.mem_cons.mp member with rfl | earlier
  · cases effect with
    | callBackend other change copy =>
        obtain rfl : other = target := beq_iff_eq.mp asks
        rw [← same, ← answer.callBackend.1]
        cases reply with
        | none => rfl
        | some _ => exact beq_self_eq_true other
    | _ => cases asks
  · exact reached event earlier target asks

private theorem reached_of_run {strands : List Strand} {world : World}
    (run : Relation.ReflTransGen (World.Amid manager keepingDrivers)
      ⟨⟨initial, []⟩, strands⟩ world) :
    (∀ target, hasDriver world.now.surroundings target = hasDriver initial target) ∧
      Reached (hasDriver initial) world.now.past := by
  induction run with
  | refl => exact ⟨fun _ => rfl, fun _ none => nomatch none⟩
  | tail _earlier amid ih =>
      obtain ⟨same, reached⟩ := ih
      cases amid with
      | act act =>
          rcases act.situation with unmoved | ⟨effect, reply, after, answer, moved⟩
          · rw [unmoved]
            exact ⟨same, reached⟩
          · rw [moved]
            refine ⟨?_, reached.cons same answer⟩
            exact fun target => (answer.hasDriver_eq target).trans (same target)
      | meanwhile changed =>
          refine ⟨fun target => (changed.2 target).trans (same target), ?_⟩
          have unmoved := changed.1
          dsimp only at reached ⊢
          rw [unmoved]
          exact reached

private theorem countP_calls (reached : Reached drivers past) (target : String) :
    past.countP (calls target) = if drivers target then timesAsked target past else 0 := by
  have asked : ∀ event, calls target event = true → asksTarget target event.effect = true := by
    intro event called
    unfold calls at called
    split at called
    · exact called
    · cases called
  split
  · next driven =>
      apply List.countP_congr
      intro event member
      refine ⟨asked event, fun asks => ?_⟩
      rw [reached event member target asks, driven]
  · next undriven =>
      rw [List.countP_eq_zero]
      intro event member called
      rw [reached event member target (asked event called)] at called
      exact undriven called

end Drivers

private theorem InSequence.of_told {pool : Pool} {zone : Zone} {drivers : String → Bool}
    {world : World} (obeyed : (order pool zone).Obeyed world.now.past)
    (reached : Reached drivers world.now.past)
    (told : IsPrepared world →
      (∃ fault, world.now.past = [⟨.clearRows zone.key, .error fault⟩]) ∨
        Announced pool zone world.now.past) : InSequence pool zone drivers world where
  due := obeyed
  asked := timesAsked_le_of_obeyed obeyed
  prepared := by
    intro prepared
    apply (told prepared).imp_right
    rintro ⟨asked, once⟩
    refine ⟨?_, once⟩
    intro target
    rw [countP_calls reached, asked]

/-- Whatever others do meanwhile, an attempt asks each target once at most before any server, and
goes on to the servers only if a target accepted or there is none.  It tells other servers once, of
anything but a deletion, and asks nameservers after all of them have pending rows.  A recovery asks
no target at all. -/
theorem attempt_in_sequence (manager : Manager) (zone : Zone) (initial : Surroundings) :
    (∀ pool action, manager.topology.get? zone.poolId = some pool →
      ∀ world, Relation.ReflTransGen (World.Amid manager keepingDrivers)
        ⟨⟨initial, []⟩, [.start manager (.propagate zone action)]⟩ world →
      InSequence pool { zone with action } (hasDriver initial) world) ∧
    ∀ world, Relation.ReflTransGen (World.Amid manager keepingDrivers)
        ⟨⟨initial, []⟩, [.start manager (.recover zone)]⟩ world →
      ∀ event ∈ world.now.past, ∀ target, asksTarget target event.effect = false := by
  constructor
  · intro pool action known world run
    have arrives : Strand.Arrives manager anytime keepingDrivers
        (Handover manager pool { zone with action }) ⟨initial, []⟩
        (.start manager (.propagate zone action)) := attempt_hands_over known action rfl
    have stable : ∀ now later strand, keepingDrivers.may now later →
        Handover manager pool { zone with action } now strand →
          Handover manager pool { zone with action } later strand := by
      rintro now later strand changed ⟨task, kind, same, only, onward⟩
      rw [← keepingDrivers.past changed] at onward
      exact ⟨task, kind, same, only, onward⟩
    obtain ⟨-, reached⟩ := reached_of_run run
    rcases arrives.reached stable run with ⟨later, moved, rfl, underway⟩ |
      ⟨later, moved, ⟨task, kind, rfl, only, onward⟩, since⟩
    · -- What was performed on the way is due, since it is due in the whole preparation.
      obtain ⟨last, final, longer, task, kind, -, -, onward⟩ := underway.completes
      refine .of_told (fun event earlier inside => ?_) reached ?_
      · exact onward.obeyed event earlier (inside.trans longer)
      · rintro (⟨result, done⟩ | verified)
        · obtain rfl := Option.some.inj done
          obtain ⟨_, _, -, -, ended⟩ := underway.of_done
          rcases ended.told with ⟨fault, failed, -⟩ | told
          · exact .inl ⟨fault, failed⟩
          · exact .inr told
        · exact .inr (onward.before later.past longer verified)
    · obtain ⟨more, past, ofKind⟩ := World.Amid.only onward.handed only since
      apply InSequence.of_told _ reached
      · intro _prepared
        rw [past]
        exact onward.told_later ofKind
      · rw [past]
        exact onward.obeyed_later ofKind
  · intro world run event member target
    obtain ⟨pool, only⟩ := recover_verifies manager zone
    obtain ⟨more, past, verifying⟩ :=
      World.Amid.only (fun _ verifying => handedOut_verifies verifying) only run
    rw [past, List.append_nil] at member
    exact (verifying event member).asksTarget_eq target

private def poolWithTargets : Pool where
  id := "p"
  name := "p"
  targets := [{ id := "a", backendType := "fake" }, { id := "b", backendType := "fake" }]
  nameservers := [⟨"n", 53⟩]
  alsoNotifies := [⟨"o", 53⟩]

private def managerWithTargets : Manager where
  topology := { pools := [poolWithTargets] }
  policy := { probe := ⟨1000, 100, 3⟩ }

private def unwritten : Zone where
  id := "z"
  name := "z."
  serial := 10
  action := .update
  status := .pending
  poolId := "p"
  updatedAt := ⟨0, 0⟩

private def beforeWriting : Surroundings where
  status := .memory { ttl := 1 }
  registry := .memory { zones := [unwritten] }
  backends := { byTarget := [("a", .rehearsal {})] }

private def servesWritten : Probe := { outcome := .ok, serial := some 10, attempts := 1 }

private def isWritten (world : World) : Bool :=
  world.strands.all Strand.isDone && world.now.past.countP (calls "a") == 1 &&
    world.now.past.countP (calls "b") == 0 && timesTold ⟨"o", 53⟩ world.now.past == 1

/-- An update that goes on to verification and returns. -/
theorem attempt_in_sequence_update : ∃ world,
    Relation.ReflTransGen (World.Amid managerWithTargets keepingDrivers)
      ⟨⟨beforeWriting, []⟩, [.start managerWithTargets (.propagate unwritten .update)]⟩ world ∧
    isWritten world = true ∧
    managerWithTargets.topology.get? unwritten.poolId = some poolWithTargets ∧
    InSequence poolWithTargets { unwritten with action := .update } (hasDriver beforeWriting)
      world := by
  have played : ((⟨⟨beforeWriting, []⟩,
      [.start managerWithTargets (.propagate unwritten .update)]⟩ : World).playFirst
        managerWithTargets servesWritten 30).any isWritten = true := by
    decide +kernel
  obtain ⟨world, moved, seen⟩ := (Option.any_eq_true _ _).mp played
  have known : managerWithTargets.topology.get? unwritten.poolId = some poolWithTargets := by
    decide +kernel
  have run : Relation.ReflTransGen (World.Amid managerWithTargets keepingDrivers)
      ⟨⟨beforeWriting, []⟩, [.start managerWithTargets (.propagate unwritten .update)]⟩ world :=
    Relation.ReflTransGen.mono (fun _ _ => .act) _ _ (World.playFirst_acts moved)
  exact ⟨world, run, seen, known, (attempt_in_sequence _ _ _).1 _ .update known world run⟩

end ZonePropagation.Propagation
