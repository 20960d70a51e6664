import ZonePropagation.Proofs.Propagation.Locking
/-!
Who may report a verdict on a key.

A caller that records a result may report only after it has read a row under the lock of the key,
and once its report was accepted it clears the rows before it gives the lock back.  An attempt may
do so without the lock as long as nobody else works on its key.
-/

namespace ZonePropagation.Propagation

open Interleaving

/-- The operation records the result of a nameserver under the key. -/
def Records (key : ActionKey) : Operation → Prop
  | .record zone _ _ _ | .verifyDetached zone _ => ⟨zone.id, zone.action.effective⟩ = key
  | _ => False

/-- The operation is one of those that an attempt waits for. -/
def Helps : Operation → Prop
  | .change _ _ | .announce _ _ | .verify _ _ => True
  | _ => False

/-- What a caller may do: one that has seen no row may not report, and one whose report was accepted
has the rows to clear. -/
inductive Standing where
  | outside
  | entitled
  | confirmed
deriving DecidableEq

structure Caller where
  hold : Hold
  standing : Standing
  alone : Bool

namespace Caller

def outsider : Caller := ⟨.nothing, .outside, false⟩

def opening : Caller := ⟨.nothing, .entitled, true⟩

def allows (key : ActionKey) (caller : Caller) : Effect → Prop
  | .readRows read => read = key ∧ if caller.alone then caller.standing = .entitled
      else caller.standing ≠ .confirmed ∧ caller.hold.worksOn key = true
  | .storeRow _ _ _ _ | .deliver _ => caller.standing = .entitled
  | .clearRows cleared => cleared = key ∧
      (caller.standing = .confirmed ∨ caller.alone = true ∧ caller.standing = .entitled)
  | .reapRows _ => False
  | .fork _ work => caller.alone = true ∧ caller.standing = .entitled ∧
      ∀ operation ∈ work, Helps operation
  | .detach work => caller.alone = true ∧ caller.standing = .entitled ∧ caller.hold = .nothing ∧
      ∀ operation ∈ work, Records key operation
  | .release lock => caller.standing ≠ .confirmed ∧ caller.hold.allows (.release lock)
  | effect => caller.hold.allows effect

def next (caller : Caller) : (effect : Effect) → Reply effect → Caller
  | .readRows _, .ok (_ :: _) => { caller with standing := .entitled }
  | .deliver _, .ok () => { caller with standing := .confirmed }
  | .clearRows _, _ => if caller.standing = .confirmed then { caller with standing := .outside }
      else caller
  | .detach _, _ => outsider
  | .release lock, _ => { caller with
      hold := caller.hold.next (.release lock) ()
      standing := if caller.alone then caller.standing else .outside }
  | effect, reply => { caller with hold := caller.hold.next effect reply }

theorem allows_of_quiet {key : ActionKey} {caller : Caller} {effect : Effect}
    (quiet : isQuiet effect = true) : caller.allows key effect := by
  cases effect with
  | callBackend _ _ _ | askSerial _ _ | probe _ _ _ _ | findZones _ | measure _ | now | elapsed
  | pause _ | pauseUpTo _ | awaitTick _ | stopTimers => trivial
  | _ => cases quiet

theorem next_of_quiet {caller : Caller} {effect : Effect} (quiet : isQuiet effect = true)
    (reply : Reply effect) : caller.next effect reply = caller := by
  cases effect with
  | callBackend _ _ _ | askSerial _ _ | probe _ _ _ _ | findZones _ | measure _ | now | elapsed
  | pause _ | pauseUpTo _ | awaitTick _ | stopTimers => rfl
  | _ => cases quiet

/-- The caller has not moved on with its lock, and has no rows to clear. -/
structure Follows (caller last : Caller) : Prop where
  hold : last.hold = caller.hold
  alone : last.alone = caller.alone
  standing : last.standing ≠ .confirmed

theorem Follows.refl {caller : Caller} (standing : caller.standing ≠ .confirmed) :
    caller.Follows caller := ⟨rfl, rfl, standing⟩

end Caller

def calling (key : ActionKey) : Protocol Caller where
  begins := fun
    | .change _ _ | .announce _ _ | .verify _ _ => .opening
    | _ => .outsider
  ends := fun caller => caller.hold = .nothing ∧ caller.standing ≠ .confirmed
  allows := Caller.allows key
  next := Caller.next
  permits := fun operation => Helps operation ∨ Records key operation

theorem begins_of_records {key : ActionKey} {operation : Operation}
    (records : Records key operation) : (calling key).begins operation = .outsider := by
  cases operation with
  | record _ _ _ _ | verifyDetached _ _ => rfl
  | _ => cases records

theorem handedOut_of_quiet {effect : Effect} (quiet : isQuiet effect = true) :
    handedOut effect = [] := by
  cases effect with
  | fork _ _ | detach _ => cases quiet
  | _ => rfl

/-- What becomes of the caller of a program, whatever the value of the program is. -/
abbrev GoesTo {α : Type} (key : ActionKey) (goal : Caller → Prop) (program : Program α)
    (caller : Caller) : Prop :=
  (calling key).conduct.Along (fun last _ => goal last) program caller

namespace GoesTo

variable {key : ActionKey} {caller : Caller} {goal final : Caller → Prop} {α β : Type}

theorem pure (value : α) (met : goal caller) :
    GoesTo key goal (Pure.pure value : Program α) caller := by
  apply Conduct.Along.pure
  rintro later rfl
  exact met

theorem bind {program : Program α} {follow : α → Program β}
    (first : GoesTo key goal program caller)
    (second : ∀ last value, goal last → GoesTo key final (follow value) last) :
    GoesTo key final (program >>= follow) caller :=
  Conduct.Along.bind first second

theorem tries {program : Fallible α} {follow : α → Fallible β}
    (first : GoesTo key goal program.run caller) (fails : ∀ last, goal last → final last)
    (second : ∀ last value, goal last → GoesTo key final (follow value).run last) :
    GoesTo key final (program >>= follow).run caller := by
  apply Conduct.Along.bind first
  rintro last (fault | value) met
  · exact GoesTo.pure _ (fails last met)
  · exact second last value met

/-- A program that may fail, of which the first part leaves the caller where it is. -/
theorem inPlace {program : Fallible α} {follow : α → Fallible β}
    (first : GoesTo key (caller = ·) program.run caller) (fails : final caller)
    (second : ∀ value, GoesTo key final (follow value).run caller) :
    GoesTo key final (program >>= follow).run caller := by
  apply first.tries
  · rintro last rfl
    exact fails
  · rintro last value rfl
    exact second value

theorem lift {program : Program α} (along : GoesTo key goal program caller) :
    GoesTo key goal (liftM program : Fallible α).run caller :=
  along.bind fun _ _ met => GoesTo.pure _ met

theorem performs {effect : Effect} (allowed : caller.allows key effect)
    (nothing : handedOut effect = []) (met : ∀ reply, goal (caller.next effect reply)) :
    GoesTo key goal (perform effect) caller := by
  apply Protocol.performs
  · refine ⟨allowed, ?_⟩
    rw [nothing]
    simp
  · exact met

theorem stays {program : Program α} (quiet : Quiet program) :
    GoesTo key (caller = ·) program caller := by
  have kept : GoesTo key (· = caller) program caller := by
    apply Only.along quiet
    intro effect silent
    refine ⟨⟨Caller.allows_of_quiet silent, ?_⟩, Caller.next_of_quiet silent⟩
    rw [handedOut_of_quiet silent]
    simp
  exact kept.weaken fun _ _ same => same.symm

theorem storeRow (entitled : caller.standing = .entitled) (other : ActionKey)
    (server : Nameserver) (status : Status) (serial : Option UInt32) :
    GoesTo key (caller = ·) (Propagation.storeRow other server status serial).run caller :=
  performs entitled rfl fun _ => rfl

theorem storeRows (entitled : caller.standing = .entitled) (other : ActionKey)
    (servers : List Nameserver) (status : Status) :
    GoesTo key (caller = ·)
      (servers.forM fun server => Propagation.storeRow other server status none).run caller := by
  induction servers with
  | nil => exact GoesTo.pure _ rfl
  | cons server servers ih =>
      apply (GoesTo.storeRow entitled other server status none).inPlace
      · rfl
      · exact fun _ => ih

end GoesTo

section Reports

variable {key : ActionKey} {caller : Caller} {policy : VerificationPolicy} {zone : Zone}
  {status : Status} {serial : UInt32}

theorem deliver_goes (entitled : caller.standing = .entitled) :
    (calling key).conduct.Along (fun last accepted =>
        last = if accepted = true then { caller with standing := .confirmed } else caller)
      (deliver policy zone status serial) caller := by
  have measured : GoesTo key (caller = ·) (measure .reportFailure) caller :=
    .stays (measure_quiet _)
  have paused : ∀ millis, GoesTo key (caller = ·) (perform (.pauseUpTo millis)) caller :=
    fun millis => .stays (.perform rfl)
  apply Conduct.Along.deliver (caller = ·)
  · rintro now rfl
    apply Protocol.performs ⟨entitled, by simp [handedOut]⟩
    rintro (fault | ⟨⟩)
    · rfl
    · rfl
  · rintro millis now rfl
    exact paused millis
  · rintro now rfl
    exact measured.weaken fun last _ same => same.symm
  · rintro now later accepted rfl same
    exact same
  · rfl

theorem conclude_goes (entitled : caller.standing = .entitled) (mine : zone.key = key) :
    GoesTo key caller.Follows (conclude policy zone status serial).run caller := by
  have unconfirmed : caller.standing ≠ .confirmed := by
    rw [entitled]
    decide
  unfold conclude
  have measured : GoesTo key (caller = ·)
      (liftM (measure (.verdict zone.action status)) : Fallible Unit).run caller :=
    .stays (measure_quiet _).lift
  apply measured.inPlace (.refl unconfirmed)
  intro _measured
  have delivered : (calling key).conduct.Along (fun last (outcome : Except Fault Bool) =>
      ∃ accepted, outcome = .ok accepted ∧
        last = if accepted = true then { caller with standing := .confirmed } else caller)
      (liftM (deliver policy zone status serial) : Fallible Bool).run caller :=
    Conduct.Along.bind (deliver_goes entitled) fun last accepted same =>
      .pure fun _ unmoved => unmoved ▸ ⟨accepted, rfl, same⟩
  apply Conduct.Along.bind delivered
  rintro last _ ⟨accepted, rfl, rfl⟩
  cases accepted with
  | true =>
      have cleared : GoesTo key caller.Follows (perform (.clearRows zone.key))
          { caller with standing := .confirmed } := by
        apply GoesTo.performs
        · exact ⟨mine, .inl rfl⟩
        · rfl
        · exact fun _ => ⟨rfl, rfl, Standing.noConfusion⟩
      exact cleared
  | false => exact GoesTo.pure _ (.refl unconfirmed)

theorem decide_goes {pool : Pool} (entitled : caller.standing = .entitled)
    (working : caller.alone = false → caller.hold.worksOn key = true) (mine : zone.key = key) :
    GoesTo key caller.Follows (decide policy pool zone).run caller := by
  have unconfirmed : caller.standing ≠ .confirmed := by
    rw [entitled]
    decide
  have stays : caller = { caller with standing := .entitled } := by
    rw [← entitled]
  unfold decide
  have read : GoesTo key (caller = ·) (readRows zone.key).run caller := by
    apply GoesTo.performs
    · refine ⟨mine, ?_⟩
      cases solitary : caller.alone with
      | true => exact entitled
      | false => exact ⟨unconfirmed, working solitary⟩
    · rfl
    · rintro (fault | ⟨⟩ | ⟨row, rows⟩)
      · rfl
      · rfl
      · exact stays
  apply read.inPlace (.refl unconfirmed)
  intro rows
  dsimp only
  split
  · exact GoesTo.pure _ (.refl unconfirmed)
  · apply (conclude_goes entitled mine).tries
    · exact fun _ follows => follows
    · exact fun _ _ follows => GoesTo.pure _ follows

theorem giveUp_goes {pool : Pool} (entitled : caller.standing = .entitled)
    (mine : zone.key = key) :
    GoesTo key caller.Follows (giveUp policy pool zone).run caller := by
  have unconfirmed : caller.standing ≠ .confirmed := by
    rw [entitled]
    decide
  unfold giveUp
  apply (GoesTo.storeRows entitled zone.key pool.nameservers .error).inPlace (.refl unconfirmed)
  intro _stored
  apply (conclude_goes entitled mine).tries
  · exact fun _ follows => follows
  · exact fun _ _ follows => GoesTo.pure _ follows

end Reports

section Locked

variable {key : ActionKey} {caller : Caller} {α : Type}

theorem locked_goes {work : Program α} (free : caller.hold = .nothing)
    (within : ∀ lock, GoesTo key (Caller.Follows { caller with hold := .works key lock }) work
      { caller with hold := .works key lock }) :
    GoesTo key (calling key).ends (locked key work) caller := by
  apply Protocol.locked
  · exact free
  · exact fun lock => ⟨key, rfl⟩
  · intro lock
    apply (within lock).weaken
    rintro ⟨_, standing, _⟩ value ⟨rfl, rfl, kept⟩
    refine ⟨⟨kept, key, rfl⟩, rfl, rfl, rfl, ?_⟩
    change (if caller.alone = true then standing else .outside) ≠ .confirmed
    split
    · exact kept
    · exact Standing.noConfusion

end Locked

section Operations

variable {manager : Manager} {key : ActionKey}

private theorem recordLocked_goes {policy : VerificationPolicy} {pool : Pool} {zone : Zone}
    {caller : Caller} (outside : caller.standing = .outside)
    (working : caller.hold.worksOn key = true) (waiting : caller.alone = false)
    (mine : zone.key = key) (server : Nameserver) (status : Status) (serial : Option UInt32) :
    GoesTo key caller.Follows (ExceptT.run (do
      if (← readRows zone.key).isEmpty then return none
      storeRow zone.key server status serial
      return some (← decide policy pool zone) : Fallible (Option Verdict))) caller := by
  have unconfirmed : caller.standing ≠ .confirmed := by
    rw [outside]
    exact Standing.noConfusion
  have read : (calling key).conduct.Along (fun last (outcome : Except Fault (List StatusRecord)) =>
      (∃ row rows, outcome = .ok (row :: rows) ∧
        last = { caller with standing := .entitled }) ∨
      last = caller ∧ ∀ row rows, outcome ≠ .ok (row :: rows))
      (perform (.readRows zone.key)) caller := by
    apply Protocol.performs
    · refine ⟨⟨mine, ?_⟩, by simp [handedOut]⟩
      rw [waiting]
      exact ⟨unconfirmed, working⟩
    · rintro (fault | ⟨⟩ | ⟨row, rows⟩)
      · exact .inr ⟨rfl, fun _ _ => by simp⟩
      · exact .inr ⟨rfl, fun _ _ => by simp⟩
      · exact .inl ⟨row, rows, rfl, rfl⟩
  apply Conduct.Along.bind read
  rintro last outcome (⟨row, rows, rfl, rfl⟩ | ⟨rfl, empty⟩)
  · have stored : GoesTo key (· = { caller with standing := .entitled })
        (storeRow zone.key server status serial).run { caller with standing := .entitled } := by
      apply GoesTo.performs
      · exact rfl
      · rfl
      · exact fun _ => rfl
    have follows : ∀ last, Caller.Follows { caller with standing := .entitled } last →
        caller.Follows last := fun _ kept => ⟨kept.hold, kept.alone, kept.standing⟩
    change GoesTo key caller.Follows (ExceptT.run (do
      storeRow zone.key server status serial
      return some (← decide policy pool zone))) { caller with standing := .entitled }
    apply stored.tries
    · rintro _ rfl
      exact ⟨rfl, rfl, Standing.noConfusion⟩
    · rintro _ _ rfl
      have decided : GoesTo key (Caller.Follows { caller with standing := .entitled })
          (decide policy pool zone).run { caller with standing := .entitled } :=
        decide_goes rfl (fun _ => working) mine
      apply decided.tries
      · exact follows
      · exact fun last _ kept => GoesTo.pure _ (follows last kept)
  · rcases outcome with fault | rows
    · exact GoesTo.pure _ (.refl unconfirmed)
    · cases rows with
      | nil => exact GoesTo.pure _ (.refl unconfirmed)
      | cons row rows => exact absurd rfl (empty row rows)

theorem record_goes {zone : Zone} (mine : ⟨zone.id, zone.action.effective⟩ = key)
    (server : Nameserver) (status : Status) (serial : Option UInt32) :
    GoesTo key (calling key).ends (manager.record zone server status serial).run .outsider := by
  have ended : (calling key).ends .outsider := ⟨rfl, Standing.noConfusion⟩
  unfold Manager.record
  apply (GoesTo.stays (pool_quiet manager zone)).inPlace ended
  intro pool
  dsimp only
  split
  · exact GoesTo.pure _ ended
  · subst mine
    apply locked_goes rfl
    intro lock
    exact recordLocked_goes rfl (beq_self_eq_true _) rfl rfl server status serial

private theorem forks_goes {caller : Caller} {work : List Operation} {width : Nat}
    (solitary : caller.alone = true) (entitled : caller.standing = .entitled)
    (helping : ∀ operation ∈ work, Helps operation) :
    GoesTo key (caller = ·) (perform (.fork width work)) caller := by
  apply Protocol.performs
  · exact ⟨⟨solitary, entitled, helping⟩, fun operation member => .inl (helping operation member)⟩
  · exact fun _ => rfl

theorem verify_goes {policy : VerificationPolicy} {pool : Pool} {zone : Zone}
    (mine : zone.key = key) (effective : zone.action.effective = zone.action) :
    GoesTo key (calling key).ends (verify policy pool zone).run .opening := by
  have ended : (calling key).ends .opening := ⟨rfl, Standing.noConfusion⟩
  unfold verify
  apply (GoesTo.storeRows rfl zone.key pool.nameservers .pending).inPlace ended
  intro _stored
  split
  · have handed : GoesTo key (calling key).ends
        (perform (.detach (pool.nameservers.map (.verifyDetached zone)))) .opening := by
      have recording : ∀ operation ∈ pool.nameservers.map (.verifyDetached zone),
          Records key operation := by
        intro operation member
        obtain ⟨server, -, rfl⟩ := List.mem_map.mp member
        change (⟨zone.id, zone.action.effective⟩ : ActionKey) = key
        rw [effective]
        exact mine
      apply Protocol.performs
      · exact ⟨⟨rfl, rfl, rfl, recording⟩, fun operation member =>
          .inr (recording operation member)⟩
      · exact fun _ => ⟨rfl, Standing.noConfusion⟩
    apply handed.lift.tries
    · exact fun _ met => met
    · exact fun _ _ met => GoesTo.pure _ met
  · have verified : GoesTo key (Caller.opening = ·)
        (sideBySide (pool.nameservers.map (.verify zone))) .opening :=
      forks_goes rfl rfl fun operation member => by
        obtain ⟨server, -, rfl⟩ := List.mem_map.mp member
        trivial
    apply verified.lift.inPlace ended
    intro results
    refine GoesTo.inPlace (GoesTo.stays (Only.triesForIn fun result _member => ?_)) ended ?_
    · split
      · exact .pure _
      · exact .pure _
    intro _checked
    have decided : GoesTo key (calling key).ends (locked key (decide policy pool zone).run)
        .opening :=
      locked_goes rfl fun lock =>
        decide_goes rfl (fun solitary => nomatch solitary) mine
    rw [mine]
    apply GoesTo.tries decided
    · exact fun _ met => met
    · intro last verdict met
      split
      · exact GoesTo.pure _ met
      · exact GoesTo.pure _ met

/-- The operation is an attempt to propagate the change that results under the key are about. -/
def Attempts (key : ActionKey) : Operation → Prop
  | .propagate zone action => action.effective = action ∧ ⟨zone.id, action⟩ = key
  | .recover zone => ⟨zone.id, zone.action.effective⟩ = key
  | _ => False

private theorem cleared_goes {zone : Zone} (mine : zone.key = key) :
    GoesTo key (Caller.opening = ·) (clearRows zone.key).run .opening := by
  apply GoesTo.performs
  · exact ⟨mine, .inr ⟨rfl, rfl⟩⟩
  · rfl
  · exact fun _ => rfl

theorem propagate_goes {zone : Zone} {action : ZoneAction} (effective : action.effective = action)
    (mine : ⟨zone.id, action⟩ = key) :
    GoesTo key (calling key).ends (manager.propagate zone action).run .opening := by
  have ended : (calling key).ends .opening := ⟨rfl, Standing.noConfusion⟩
  unfold Manager.propagate
  apply (GoesTo.stays (pool_quiet manager zone)).inPlace ended
  intro pool
  have cleared : GoesTo key (Caller.opening = ·) (clearRows { zone with action }.key).run
      .opening := cleared_goes mine
  apply cleared.inPlace ended
  intro _cleared
  have dispatched : GoesTo key (Caller.opening = ·) (dispatch pool { zone with action }) .opening :=
    (forks_goes rfl rfl fun operation member => by
      obtain ⟨target, -, rfl⟩ := List.mem_map.mp member
      trivial).bind fun last _ same => GoesTo.pure _ same
  apply dispatched.lift.inPlace ended
  intro accepted
  split
  · have given : GoesTo key Caller.opening.Follows
        (giveUp manager.policy pool { zone with action }).run .opening := giveUp_goes rfl mine
    exact given.weaken fun last _ follows => ⟨follows.hold, follows.standing⟩
  · have announced : GoesTo key (Caller.opening = ·)
        (announceToOthers pool { zone with action }) .opening := by
      unfold announceToOthers
      split
      · exact GoesTo.pure _ rfl
      · exact (forks_goes rfl rfl fun operation member => by
          obtain ⟨server, -, rfl⟩ := List.mem_map.mp member
          trivial).bind fun last _ same => GoesTo.pure _ same
    apply announced.lift.inPlace ended
    exact fun _ => verify_goes mine effective

theorem recover_goes {zone : Zone} (mine : ⟨zone.id, zone.action.effective⟩ = key) :
    GoesTo key (calling key).ends (manager.recover zone).run .opening := by
  have ended : (calling key).ends .opening := ⟨rfl, Standing.noConfusion⟩
  have effective : zone.action.effective.effective = zone.action.effective := by
    cases zone.action with
    | none | create | update | delete => rfl
  unfold Manager.recover
  apply (GoesTo.stays (pool_quiet manager zone)).inPlace ended
  intro pool
  have cleared : GoesTo key (Caller.opening = ·)
      (clearRows { zone with action := zone.action.effective }.key).run .opening :=
    cleared_goes mine
  apply cleared.inPlace ended
  exact fun _ => verify_goes mine effective

theorem attempt_goes {attempt : Operation} (about : Attempts key attempt) :
    (calling key).Keeps (manager.program attempt) .opening := by
  cases attempt with
  | propagate zone action =>
      exact (propagate_goes about.1 about.2).bind fun last _ met => GoesTo.pure _ met
  | recover zone => exact (recover_goes about).bind fun last _ met => GoesTo.pure _ met
  | _ => cases about

def isHelpful (effect : Effect) : Prop :=
  isQuiet effect = true ∨ ∃ key server status serial, effect = .storeRow key server status serial

theorem helps_only {operation : Operation} (helps : Helps operation) :
    Only isHelpful (manager.program operation) := by
  have helpful : ∀ effect, isQuiet effect = true → isHelpful effect := fun _ quiet => .inl quiet
  cases operation with
  | change target zone =>
      exact ((change_quiet target zone).weaken helpful).bind fun _ => .pure _
  | announce zone server =>
      have told : Only isHelpful
          (discard (probe .announcement zone server
            { manager.policy.probe with maxRetries := 1 })) :=
        ((probe_quiet _ _ _ _).weaken helpful).bind fun _ => .pure _
      exact told.bind fun _ => .pure _
  | verify zone server =>
      apply ((verifyServer_quiet manager.policy zone server).weaken helpful).bind
      rintro ⟨status, serial⟩
      have stored : Only isHelpful (storeRow zone.key server status serial).run :=
        .perform (.inr ⟨_, _, _, _, rfl⟩)
      exact stored.bind fun _ => .pure _
  | _ => cases helps

theorem calling_kept (manager : Manager) (key : ActionKey) : (calling key).Kept manager := by
  rintro operation (helps | records)
  · have begins : (calling key).begins operation = .opening := by
      cases operation with
      | change _ _ | announce _ _ | verify _ _ => rfl
      | _ => cases helps
    rw [begins]
    have stays : GoesTo key (· = .opening) (manager.program operation) .opening := by
      apply (helps_only helps).along
      rintro effect (quiet | ⟨other, server, status, serial, rfl⟩)
      · exact ⟨⟨Caller.allows_of_quiet quiet, by rw [handedOut_of_quiet quiet]; simp⟩,
          Caller.next_of_quiet quiet⟩
      · exact ⟨⟨rfl, by simp [handedOut]⟩, fun _ => rfl⟩
    apply stays.weaken
    rintro last _ rfl
    exact ⟨rfl, Standing.noConfusion⟩
  · cases operation with
    | record zone server status serial =>
        exact (record_goes records _ _ _).bind fun last _ met => GoesTo.pure _ met
    | verifyDetached zone server =>
        have verified : GoesTo key (Caller.outsider = ·)
            (verifyServer manager.policy zone server) .outsider :=
          .stays (verifyServer_quiet _ _ _)
        apply verified.bind
        rintro last ⟨status, serial⟩ rfl
        exact (record_goes records _ _ _).bind fun last _ met => GoesTo.pure _ met
    | _ => cases records

end Operations

end ZonePropagation.Propagation
