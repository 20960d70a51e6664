import ZonePropagation.Proofs.Interleaving.World
/-!
What each kind of effect can change.  Rows change only where rows are written, the registry only
where a report is delivered, and the locks only in the steps of a lock.
-/

namespace ZonePropagation.Interleaving

open Propagation

variable {timing : Timing} {before after : Surroundings}

def writesRows : Effect → Bool
  | .clearRows _ | .storeRow _ _ _ _ | .reapRows _ => true
  | _ => false

def delivers : Effect → Bool
  | .deliver _ => true
  | _ => false

def turnsLocks : Effect → Bool
  | .enter _ | .acquire _ | .release _ | .retire _ _ | .leave _ => true
  | _ => false

def hasDriver (surroundings : Surroundings) (target : String) : Bool :=
  (surroundings.backends.get? target).isSome

private theorem isSome_insert {backends : Backends} {target : String}
    (present : (backends.get? target).isSome = true) (driver : Backend) (other : String) :
    ((backends.insert target driver).get? other).isSome = (backends.get? other).isSome := by
  unfold Backends.insert Backends.get?
  rw [List.find?_append, List.find?_filter]
  by_cases same : target = other
  · subst same
    rw [← Backends.get?, present]
    simp
  · have elsewhere : ((target, driver).1 == other) = false := by simpa using same
    have kept : ∀ entry : String × Backend,
        (decide (entry.1 ≠ target ∧ entry.1 = other)) = (entry.1 == other) := by
      intro entry
      by_cases found : entry.1 = other
      · simp [found, Ne.symm same]
      · simp [found]
    simp [elsewhere, kept]

/-- A call is replied to where there is a driver, and no driver comes or goes. -/
theorem Answers.callBackend {target : String} {change : ZoneChange} {zone : Zone}
    {reply : Option (String × Bool)}
    (answer : Answers timing before (.callBackend target change zone) reply after) :
    reply.isSome = hasDriver before target ∧ ∃ backends, after = { before with backends } ∧
      ∀ other, hasDriver after other = hasDriver before other := by
  obtain ⟨Outside, channel, clock, outside, outside', _timely, outcome⟩ := answer
  cases found : before.backends.get? target with
  | none =>
      have silent : ((Surroundings.answer channel clock
          (.callBackend target change zone)).run before).run outside =
            ((none, before), outside) := by
        change (((Surroundings.callBackend channel target change zone).run before).run outside) = _
        simp [Surroundings.callBackend, found]
        rfl
      rw [silent] at outcome
      cases outcome
      exact ⟨by simp [hasDriver, found], before.backends, rfl, fun _ => rfl⟩
  | some backend =>
      obtain ⟨⟨result, driver⟩, outsideLater, carried⟩ :
          ∃ called later, (backend.carryOut channel change zone).run outside = (called, later) :=
        ⟨_, _, rfl⟩
      have called : ((Surroundings.answer channel clock
          (.callBackend target change zone)).run before).run outside =
            ((some (backend.type, result.isOk),
              { before with backends := before.backends.insert target driver }),
              outsideLater) := by
        change (((Surroundings.callBackend channel target change zone).run before).run outside) = _
        simp [Surroundings.callBackend, found, StateT.run_bind, carried]
        rfl
      rw [called] at outcome
      cases outcome
      have present : (before.backends.get? target).isSome = true := by simp [found]
      exact ⟨present.symm, _, rfl, isSome_insert present driver⟩

theorem Answers.askSerial {target zone : String}
    {reply : Option (Except Fault (Option UInt32))}
    (answer : Answers timing before (.askSerial target zone) reply after) : after = before := by
  obtain ⟨Outside, channel, clock, outside, outside', _timely, outcome⟩ := answer
  cases found : before.backends.get? target with
  | none =>
      have silent : ((Surroundings.answer channel clock (.askSerial target zone)).run before).run
          outside = ((none, before), outside) := by
        change (((Surroundings.askSerial channel target zone).run before).run outside) = _
        simp [Surroundings.askSerial, found]
        rfl
      rw [silent] at outcome
      cases outcome
      rfl
  | some backend =>
      obtain ⟨serial, outsideLater, asked⟩ :
          ∃ serial later, (backend.serial? channel zone).run outside = (serial, later) :=
        ⟨_, _, rfl⟩
      have called : ((Surroundings.answer channel clock (.askSerial target zone)).run before).run
          outside = ((some serial, before), outsideLater) := by
        change (((Surroundings.askSerial channel target zone).run before).run outside) = _
        simp [Surroundings.askSerial, found, StateT.run_bind, asked]
        rfl
      rw [called] at outcome
      cases outcome
      rfl

theorem Answers.clearRows {key : ActionKey} {reply : Except Fault Unit}
    (answer : Answers timing before (.clearRows key) reply after) :
    reply = (before.status.clear key).1 ∧
      after = { before with status := (before.status.clear key).2 } := by
  obtain ⟨Outside, channel, clock, outside, outside', _timely, outcome⟩ := answer
  cases outcome
  exact ⟨rfl, rfl⟩

theorem Answers.storeRow {key : ActionKey} {server : Nameserver} {status : Status}
    {serial : Option UInt32} {reply : Except Fault Unit}
    (answer : Answers timing before (.storeRow key server status serial) reply after) :
    ∃ clock, reply = (before.status.store clock key server status serial).1 ∧
      after = { before with
        status := (before.status.store clock key server status serial).2 } := by
  obtain ⟨Outside, channel, clock, outside, outside', _timely, outcome⟩ := answer
  cases outcome
  exact ⟨clock, rfl, rfl⟩

theorem Answers.readRows {key : ActionKey} {reply : Except Fault (List StatusRecord)}
    (answer : Answers timing before (.readRows key) reply after) :
    after = before ∧ ∃ clock, timing before (.readRows key) clock ∧
      reply = before.status.retrieve clock key := by
  obtain ⟨Outside, channel, clock, outside, outside', timely, outcome⟩ := answer
  cases outcome
  exact ⟨rfl, clock, timely, rfl⟩

theorem Answers.reapRows {ageSeconds : Nat} {reply : Except Fault Nat}
    (answer : Answers timing before (.reapRows ageSeconds) reply after) :
    ∃ clock, reply = (before.status.reapStale clock ageSeconds).1 ∧
      after = { before with status := (before.status.reapStale clock ageSeconds).2 } := by
  obtain ⟨Outside, channel, clock, outside, outside', _timely, outcome⟩ := answer
  cases outcome
  exact ⟨clock, rfl, rfl⟩

theorem Answers.findZones {criterion : ZoneCriterion} {reply : Except Fault (List Zone)}
    (answer : Answers timing before (.findZones criterion) reply after) :
    after = before ∧ reply = before.registry.findZones criterion := by
  obtain ⟨Outside, channel, clock, outside, outside', _timely, outcome⟩ := answer
  cases outcome
  exact ⟨rfl, rfl⟩

theorem Answers.deliver {report : Registry.Report} {reply : Except Fault Unit}
    (answer : Answers timing before (.deliver report) reply after) :
    ∃ now, reply = (before.registry.deliver report now).1 ∧
      after = { before with registry := (before.registry.deliver report now).2 } := by
  obtain ⟨Outside, channel, clock, outside, outside', _timely, outcome⟩ := answer
  cases outcome
  exact ⟨clock.now, rfl, rfl⟩

theorem Answers.unchanged {effect : Effect} {reply : Reply effect}
    (answer : Answers timing before effect reply after) :
    (writesRows effect = false → after.status = before.status) ∧
      (delivers effect = false → after.registry = before.registry) ∧
      (turnsLocks effect = false → after.locks = before.locks) := by
  cases effect with
  | probe _ _ _ _ | awaitTick _ | fork _ _ =>
      have same : after = before := answer
      exact ⟨fun _ => by rw [same], fun _ => by rw [same], fun _ => by rw [same]⟩
  | askSerial _ _ =>
      have same := answer.askSerial
      exact ⟨fun _ => by rw [same], fun _ => by rw [same], fun _ => by rw [same]⟩
  | callBackend _ _ _ =>
      obtain ⟨-, backends, same, -⟩ := answer.callBackend
      exact ⟨fun _ => by rw [same], fun _ => by rw [same], fun _ => by rw [same]⟩
  | acquire _ =>
      have same := answer.2
      exact ⟨fun _ => by rw [same], fun _ => by rw [same], (fun turning => by cases turning)⟩
  | clearRows _ | storeRow _ _ _ _ | reapRows _ =>
      obtain ⟨Outside, channel, clock, outside, outside', _timely, outcome⟩ := answer
      cases outcome
      exact ⟨(fun writing => by cases writing), fun _ => rfl, fun _ => rfl⟩
  | deliver _ =>
      obtain ⟨Outside, channel, clock, outside, outside', _timely, outcome⟩ := answer
      cases outcome
      exact ⟨fun _ => rfl, (fun delivering => by cases delivering), fun _ => rfl⟩
  | enter _ | release _ | retire _ _ | leave _ =>
      obtain ⟨Outside, channel, clock, outside, outside', _timely, outcome⟩ := answer
      cases outcome
      exact ⟨fun _ => rfl, fun _ => rfl, (fun turning => by cases turning)⟩
  | _ =>
      obtain ⟨Outside, channel, clock, outside, outside', _timely, outcome⟩ := answer
      cases outcome
      exact ⟨fun _ => rfl, fun _ => rfl, fun _ => rfl⟩

theorem Answers.hasDriver_eq {effect : Effect} {reply : Reply effect}
    (answer : Answers timing before effect reply after) (target : String) :
    hasDriver after target = hasDriver before target := by
  cases effect with
  | probe _ _ _ _ | awaitTick _ | fork _ _ =>
      have same : after = before := answer
      rw [same]
  | askSerial _ _ => rw [answer.askSerial]
  | callBackend _ _ _ =>
      obtain ⟨-, backends, -, same⟩ := answer.callBackend
      exact same target
  | acquire _ =>
      rw [answer.2]
      rfl
  | _ =>
      obtain ⟨Outside, channel, clock, outside, outside', _timely, outcome⟩ := answer
      cases outcome
      rfl

def heldAfter (held : List Nat) : Effect → List Nat
  | .acquire lock => lock :: held
  | .release lock => held.erase lock
  | _ => held

theorem heldAfter_of_turnsLocks {effect : Effect} (still : turnsLocks effect = false)
    (held : List Nat) : heldAfter held effect = held := by
  cases effect with
  | acquire _ | release _ => cases still
  | _ => rfl

theorem enter_held (locks : LockTable) (key : ActionKey) :
    (locks.enter key).2.held = locks.held := by
  unfold LockTable.enter
  split
  · rfl
  · rfl

theorem retire_held (locks : LockTable) (key : ActionKey) (lock : Nat) :
    (locks.retire key lock).held = locks.held := by
  unfold LockTable.retire
  split
  · rfl
  · rfl

theorem Answers.held {effect : Effect} {reply : Reply effect}
    (answer : Answers timing before effect reply after) :
    after.locks.held = heldAfter before.locks.held effect := by
  cases turning : turnsLocks effect with
  | false => rw [heldAfter_of_turnsLocks turning, answer.unchanged.2.2 turning]
  | true =>
      cases effect with
      | acquire lock =>
          rw [answer.2]
          rfl
      | enter key =>
          obtain ⟨Outside, channel, clock, outside, outside', _timely, outcome⟩ := answer
          cases outcome
          exact enter_held before.locks key
      | retire key lock =>
          obtain ⟨Outside, channel, clock, outside, outside', _timely, outcome⟩ := answer
          cases outcome
          exact retire_held before.locks key lock
      | release _ | leave _ =>
          obtain ⟨Outside, channel, clock, outside, outside', _timely, outcome⟩ := answer
          cases outcome
          rfl
      | _ => cases turning

/-- Drivers that meet with no response at all. -/
def silence : Provisioner.Channel (StateM Unit) where
  exchange := fun _request => pure none
  querySerial := fun _zone _server _options =>
    pure { outcome := .timeout, serial := none, attempts := 0 }

/-- Every effect has some reply, but for a lock that is not free. -/
theorem Answers.exists_reply (before : Surroundings) (effect : Effect)
    (free : ∀ lock, effect = .acquire lock → before.locks.isFree lock = true) :
    ∃ reply after, Answers anytime before effect reply after := by
  cases effect with
  | probe _ _ _ _ =>
      exact ⟨{ outcome := .timeout, serial := none, attempts := 0 }, before, rfl⟩
  | awaitTick _ => exact ⟨false, before, rfl⟩
  | fork _ _ => exact ⟨[], before, rfl⟩
  | acquire lock => exact ⟨(), _, free lock rfl, rfl⟩
  | _ => exact ⟨_, _, Unit, silence, default, (), (), trivial, rfl⟩

theorem World.Step.registry_of_delivered {manager : Manager} {may : Operation → Prop}
    {world next : World} {report : Registry.Report} {reply : Except Fault Unit}
    (step : World.Step manager may world next)
    (delivered : next.now.past = ⟨.deliver report, reply⟩ :: world.now.past) :
    ∃ now, reply = (world.now.surroundings.registry.deliver report now).1 ∧
      next.now.surroundings.registry =
        (world.now.surroundings.registry.deliver report now).2 := by
  rcases step.situation with same | ⟨effect, answered, after, answer, same⟩ |
    ⟨zones, zone, _kept, same⟩
  · rw [same] at delivered
    exact absurd delivered (List.cons_ne_self _ _).symm
  · rw [same] at delivered ⊢
    cases delivered
    obtain ⟨now, replied, left⟩ := answer.deliver
    subst left
    exact ⟨now, replied, rfl⟩
  · rw [same] at delivered
    exact absurd delivered (List.cons_ne_self _ _).symm

theorem World.Act.delivered_of_changed {manager : Manager} {world next : World}
    (act : World.Act manager timing world next)
    (changed : next.now.surroundings.registry ≠ world.now.surroundings.registry) :
    ∃ report reply, next.now.past = ⟨.deliver report, reply⟩ :: world.now.past := by
  rcases act.situation with same | ⟨effect, reply, after, answer, same⟩
  · rw [same] at changed
    exact absurd rfl changed
  · cases delivering : delivers effect with
    | false =>
        rw [same] at changed
        exact absurd (answer.unchanged.2.1 delivering) changed
    | true =>
        cases effect with
        | deliver report =>
            refine ⟨report, reply, ?_⟩
            rw [same]
            rfl
        | _ => cases delivering

end ZonePropagation.Interleaving
