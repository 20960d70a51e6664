import ZonePropagation.Propagation.Delivery
/-!
What a program does step by step while others may interfere.

A conduct says how effects are answered, what others may do in between, and which effects are
allowed.  A program keeps to it when each of its effects is allowed at the moment it comes, for
every interference before it and every answer to those before; its value then meets a goal.
-/

namespace ZonePropagation

instance {Effect : Type} {Reply : Effect → Type} : LawfulMonad (Task Effect Reply) :=
  LawfulMonad.mk' _
    (fun task => by
      induction task with
      | done value => rfl
      | perform effect next ih => exact congrArg (Task.perform effect) (funext ih))
    (fun _value _follow => rfl)
    (fun task follow last => by
      induction task with
      | done value => rfl
      | perform effect next ih => exact congrArg (Task.perform effect) (funext ih))

namespace Interleaving

open Propagation

/-- The states that effects lead through, what others may make of a state, and the effects that
are allowed in one. -/
structure Conduct (State : Type) where
  answers : State → (effect : Effect) → Reply effect → State → Prop
  rely : State → State → Prop
  rule : State → Effect → Prop
  rely_refl : ∀ now, rely now now
  rely_trans : ∀ {now later last}, rely now later → rely later last → rely now last

namespace Conduct

variable {State : Type} (conduct : Conduct State) {α β : Type}

/-- From a state on, the program performs only what is allowed, and its value meets the goal. -/
def Along (goal : State → α → Prop) : Program α → State → Prop
  | .done value, now => ∀ later, conduct.rely now later → goal later value
  | .perform effect next, now => ∀ later, conduct.rely now later →
      conduct.rule later effect ∧
        ∀ reply after, conduct.answers later effect reply after → Along goal (next reply) after

/-- A program that may fail keeps to the conduct, with a goal for its value and one for failing. -/
def Tries (onOk : State → α → Prop) (onError : State → Fault → Prop) (program : Fallible α)
    (now : State) : Prop :=
  conduct.Along (fun later result =>
    match result with
    | .ok value => onOk later value
    | .error fault => onError later fault) program.run now

variable {conduct}

namespace Along

variable {goal : State → α → Prop} {final : State → β → Prop} {now : State}

theorem after {program : Program α} {later : State} (along : conduct.Along goal program now)
    (interference : conduct.rely now later) : conduct.Along goal program later := by
  cases program with
  | done value =>
      intro last more
      exact along last (conduct.rely_trans interference more)
  | perform effect next =>
      intro last more
      exact along last (conduct.rely_trans interference more)

theorem pure {value : α} (met : ∀ later, conduct.rely now later → goal later value) :
    conduct.Along goal (Pure.pure value : Program α) now := met

theorem bind {program : Program α} {follow : α → Program β}
    (first : conduct.Along goal program now)
    (second : ∀ later value, goal later value → conduct.Along final (follow value) later) :
    conduct.Along final (program >>= follow) now := by
  change conduct.Along final (program.andThen follow) now
  induction program generalizing now with
  | done value => exact second now value (first now (conduct.rely_refl now))
  | perform effect next ih =>
      intro last interference
      obtain ⟨allowed, goesOn⟩ := first last interference
      exact ⟨allowed, fun reply after answer => ih reply (goesOn reply after answer)⟩

theorem weaken {weaker : State → α → Prop} {program : Program α}
    (along : conduct.Along goal program now)
    (implies : ∀ later value, goal later value → weaker later value) :
    conduct.Along weaker program now := by
  induction program generalizing now with
  | done value => exact fun last interference => implies last value (along last interference)
  | perform effect next ih =>
      intro last interference
      obtain ⟨allowed, goesOn⟩ := along last interference
      exact ⟨allowed, fun reply after answer => ih reply (goesOn reply after answer)⟩

theorem forM {kept : State → Prop} {items : List β} {body : β → Program PUnit}
    (stable : ∀ now later, conduct.rely now later → kept now → kept later)
    (each : ∀ item ∈ items, ∀ now, kept now → conduct.Along (fun later _ => kept later) (body item) now)
    (begun : kept now) : conduct.Along (fun later _ => kept later) (items.forM body) now := by
  induction items generalizing now with
  | nil => exact pure fun later interference => stable now later interference begun
  | cons item items ih =>
      change conduct.Along _ (body item >>= fun _ => items.forM body) now
      apply bind (each item (by simp) now begun)
      intro later _done met
      exact ih (fun other member => each other (by simp [member])) met

theorem perform {effect : Effect} {goal : State → Reply effect → Prop}
    (allowed : ∀ later, conduct.rely now later → conduct.rule later effect)
    (met : ∀ later reply after, conduct.rely now later → conduct.answers later effect reply after →
      ∀ last, conduct.rely after last → goal last reply) :
    conduct.Along goal (Propagation.perform effect) now := by
  intro later interference
  exact ⟨allowed later interference, fun reply after answer last more =>
    met later reply after interference answer last more⟩

theorem deliver (begun : State → Prop) {settled : State → Bool → Prop}
    {policy : VerificationPolicy} {zone : Zone} {status : Status} {serial : UInt32}
    (tries : ∀ now, begun now → conduct.Along (fun later (reply : Except Fault Unit) =>
      settled later reply.isOk) (Propagation.perform (.deliver ⟨zone.id, status, serial⟩)) now)
    (pauses : ∀ millis now, settled now false →
      conduct.Along (fun later _ => begun later) (Propagation.perform (.pauseUpTo millis)) now)
    (measures : ∀ now, settled now false →
      conduct.Along (fun later _ => settled later false) (measure .reportFailure) now)
    (stable : ∀ now later accepted, conduct.rely now later → settled now accepted →
      settled later accepted)
    (begins : begun now) :
    conduct.Along settled (Propagation.deliver policy zone status serial) now := by
  have again : ∀ left millis now, begun now →
      conduct.Along settled (deliverAgain ⟨zone.id, status, serial⟩ millis left) now := by
    intro left
    induction left with
    | zero =>
        intro millis now begins
        apply bind (tries now begins)
        exact fun later reply met => pure fun last more => stable later last _ more met
    | succ left ih =>
        intro millis now begins
        apply bind (tries now begins)
        intro later reply met
        split
        · exact pure fun last more => stable later last true more met
        · exact pure fun last more => stable later last false more met
        · apply bind (pauses millis later met)
          exact fun last _ further => ih (nextPause millis) last further
  unfold Propagation.deliver
  apply bind (again _ _ now begins)
  intro later accepted met
  cases accepted with
  | true => exact pure fun last more => stable later last true more met
  | false =>
      apply bind (measures later met)
      exact fun last _ held => pure fun final more => stable last final false more held

end Along

namespace Tries

variable {onOk : State → α → Prop} {onEnd : State → β → Prop} {onError : State → Fault → Prop}
  {now : State}

theorem pure {value : α} (met : ∀ later, conduct.rely now later → onOk later value) :
    conduct.Tries onOk onError (Pure.pure value : Fallible α) now := met

theorem throw {fault : Fault} (met : ∀ later, conduct.rely now later → onError later fault) :
    conduct.Tries onOk onError (MonadExcept.throw fault : Fallible α) now := met

theorem weaken {weaker : State → α → Prop} {weakerError : State → Fault → Prop}
    {program : Fallible α} (tries : conduct.Tries onOk onError program now)
    (implies : ∀ later value, onOk later value → weaker later value)
    (impliesError : ∀ later fault, onError later fault → weakerError later fault) :
    conduct.Tries weaker weakerError program now := by
  apply Along.weaken tries
  intro later result met
  cases result with
  | ok value => exact implies later value met
  | error fault => exact impliesError later fault met

theorem bind {program : Fallible α} {follow : α → Fallible β}
    (first : conduct.Tries onOk onError program now)
    (second : ∀ later value, onOk later value → conduct.Tries onEnd onError (follow value) later)
    (stable : ∀ now later fault, conduct.rely now later → onError now fault →
      onError later fault) :
    conduct.Tries onEnd onError (program >>= follow) now := by
  apply Along.bind first
  intro later result met
  cases result with
  | ok value => exact second later value met
  | error fault => exact fun last interference => stable later last fault interference met

theorem forM {kept : State → Prop} {items : List β} {body : β → Fallible PUnit}
    (stable : ∀ now later, conduct.rely now later → kept now → kept later)
    (stableError : ∀ now later fault, conduct.rely now later → onError now fault →
      onError later fault)
    (each : ∀ item ∈ items, ∀ now, kept now →
      conduct.Tries (fun later _ => kept later) onError (body item) now)
    (begun : kept now) :
    conduct.Tries (fun later _ => kept later) onError (items.forM body) now := by
  induction items generalizing now with
  | nil => exact pure fun later interference => stable now later interference begun
  | cons item items ih =>
      change conduct.Tries _ _ (body item >>= fun _ => items.forM body) now
      refine bind (each item (by simp) now begun) ?_ stableError
      intro later _done met
      exact ih (fun other member => each other (by simp [member])) met

theorem forIn {kept : State → Prop} {items : List α} {body : α → PUnit → Fallible (ForInStep PUnit)}
    (stable : ∀ now later, conduct.rely now later → kept now → kept later)
    (stableError : ∀ now later fault, conduct.rely now later → onError now fault →
      onError later fault)
    (each : ∀ item ∈ items, ∀ now, kept now →
      conduct.Tries (fun later _ => kept later) onError (body item ⟨⟩) now)
    (begun : kept now) :
    conduct.Tries (fun later _ => kept later) onError (ForIn.forIn items PUnit.unit body) now := by
  induction items generalizing now with
  | nil => exact pure fun later interference => stable now later interference begun
  | cons item items ih =>
      rw [List.forIn_cons]
      refine bind (each item (by simp) now begun) ?_ stableError
      intro later next met
      cases next with
      | done _ => exact pure fun last interference => stable later last interference met
      | yield _ => exact ih (fun other member => each other (by simp [member])) met

theorem lift {program : Program α} (along : conduct.Along onOk program now)
    (stable : ∀ now later value, conduct.rely now later → onOk now value → onOk later value) :
    conduct.Tries onOk onError (liftM program : Fallible α) now :=
  Along.bind along fun later value met => Along.pure fun last interference =>
    stable later last value interference met

end Tries

end Conduct

end Interleaving

end ZonePropagation
