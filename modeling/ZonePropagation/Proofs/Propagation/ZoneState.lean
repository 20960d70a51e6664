import Mathlib.Data.Multiset.Filter
import ZonePropagation.Proofs.Propagation.Account
import ZonePropagation.Proofs.Registry.Delivery
/-!
What is kept of one zone.

The status rows of a zone, its entry in the registry and the reports on it are kept next to those of
other zones.  An effect that concerns a zone changes nothing that is kept of another one, and what
it makes of its own depends, but for times, on nothing else that is kept.
-/

namespace ZonePropagation

namespace Status.Memory

variable {memory : Memory} {clock : Clock} {key other : ActionKey}

theorem content_clear_of_ne (different : other ≠ key) :
    (memory.clear key.zoneId key.action).content other = memory.content other := by
  unfold content clear
  rw [List.filter_filter]
  congr 1
  apply List.filter_congr
  intro entry _member
  cases theirs : entry.record.isFor other.zoneId other.action with
  | false => rfl
  | true =>
      simp only [StatusRecord.isFor, Bool.and_eq_true, beq_iff_eq] at theirs
      have elsewhere : entry.record.isFor key.zoneId key.action = false := by
        rw [Bool.eq_false_iff]
        intro mine
        simp only [StatusRecord.isFor, Bool.and_eq_true, beq_iff_eq] at mine
        apply different
        cases other
        cases key
        simp_all
      simp [elsewhere]

theorem content_store_of_ne {server : Nameserver} {status : Status} {serial : Option UInt32}
    (different : other ≠ key) :
    (memory.store clock key.zoneId key.action server status serial).content other =
      memory.content other := by
  have stored : Shows memory key (put (server, status, serial) (memory.content key))
      (memory.store clock key.zoneId key.action server status serial) := (Shows.refl memory key).store
  rw [← content_clear_of_ne different, stored.cleared, content_clear_of_ne different]

/-- Writes what is shown of a nameserver in place of what was shown before, whatever the order. -/
def putAmong (written : Shown) (rows : Multiset Shown) : Multiset Shown :=
  written ::ₘ rows.filter fun other => other.1 ≠ written.1

theorem coe_put (written : Shown) (content : List Shown) :
    (put written content : Multiset Shown) = putAmong written content := by
  have others : content.filter (fun other => other.1 != written.1) =
      content.filter fun other => other.1 ≠ written.1 := by
    apply List.filter_congr
    intro other _member
    rw [Bool.eq_iff_iff, bne_iff_ne, decide_eq_true_iff]
  unfold put putAmong
  rw [Multiset.filter_coe, Multiset.cons_coe, Multiset.coe_eq_coe, others]
  exact List.perm_append_singleton _ _

end Status.Memory

namespace Propagation

open Interleaving Status.Memory

structure ZoneState where
  rows : ZoneAction → Multiset Shown
  central : Option Zone
  reports : List Registry.Report

/-- How nameservers and targets answer, and which rows have not yet expired when those of their key
are read.  This depends on nothing but what is asked and on what the rows show. -/
structure Behaviour where
  found : ProbeKind → String → Nameserver → ProbeOptions → Probe
  accepts : String → Zone → Bool
  lasts : ActionKey → Shown → Bool := fun _ _ => true

def Behaviour.Fits (behaviour : Behaviour) : Event → Prop
  | ⟨.probe kind zone server options, reply⟩ => reply = behaviour.found kind zone server options
  | ⟨.callBackend target _ zone, reply⟩ => reply.any Prod.snd = behaviour.accepts target zone
  | _ => True

def Behaviour.timely (behaviour : Behaviour) : Timing := fun before effect clock =>
  match effect, before.status with
  | .readRows key, .memory rows => ∀ entry ∈ rows.entries,
      entry.record.isFor key.zoneId key.action = true →
        entry.isExpired clock.elapsed = !behaviour.lasts key (shown entry.record)
  | _, _ => True

def Concerns (id : String) : Effect → Prop
  | .clearRows key | .storeRow key _ _ _ | .readRows key => key.zoneId = id
  | .deliver report => report.zoneId = id
  | .callBackend _ _ _ | .probe _ _ _ _ | .measure _ | .pause _ | .pauseUpTo _ => True
  | .enter _ | .acquire _ | .release _ | .retire _ _ | .leave _ => True
  | _ => False

namespace ZoneState

def withRows (state : ZoneState) (action : ZoneAction) (rows : Multiset Shown) : ZoneState :=
  { state with rows := Function.update state.rows action rows }

def reported (state : ZoneState) (report : Registry.Report) : ZoneState :=
  { state with
    central := state.central.bind (report.leaves ⟨0, 0⟩)
    reports := state.reports ++ [report] }

structure Holds (id : String) (state : ZoneState) (surroundings : Surroundings) : Prop where
  rows : ∃ memory, surroundings.status = .memory memory ∧
    ∀ action, (memory.content ⟨id, action⟩ : Multiset Shown) = state.rows action
  registry : ∃ zones, surroundings.registry = .memory zones ∧ zones.refusals = 0 ∧
    (zones.zone? id).map Zone.untimed = state.central ∧
      (zones.reports.filter fun report => report.zoneId == id) = state.reports

/-- What may be replied to an effect that concerns the zone, and what it makes of its state. -/
def Meets (behaviour : Behaviour) (state : ZoneState) :
    (effect : Effect) → Reply effect → ZoneState → Prop
  | .clearRows key, reply, after => reply = .ok () ∧ after = state.withRows key.action 0
  | .storeRow key server status serial, reply, after => reply = .ok () ∧
      after = state.withRows key.action (putAmong (server, status, serial) (state.rows key.action))
  | .readRows key, reply, after => (∃ rows, reply = .ok rows ∧ (rows.map shown : Multiset Shown) =
      (state.rows key.action).filter fun row => behaviour.lasts key row = true) ∧ after = state
  | .deliver report, reply, after => reply = .ok () ∧ after = state.reported report
  | effect, reply, after => behaviour.Fits ⟨effect, reply⟩ ∧ after = state

variable {behaviour : Behaviour} {id other : String} {state : ZoneState}
  {before after : Surroundings} {effect : Effect} {reply : Reply effect}

theorem exists_holds (id : String) {surroundings : Surroundings} {rows : Status.Memory}
    {zones : Registry.Memory} (status : surroundings.status = .memory rows)
    (registry : surroundings.registry = .memory zones) (accepting : zones.refusals = 0) :
    ∃ state, Holds id state surroundings :=
  ⟨⟨_, _, _⟩, ⟨rows, status, fun _ => rfl⟩, zones, registry, accepting, rfl, rfl⟩

theorem Holds.unchanged (holds : state.Holds id before) (status : after.status = before.status)
    (registry : after.registry = before.registry) : state.Holds id after := by
  obtain ⟨⟨memory, kept, shows⟩, zones, known, central⟩ := holds
  exact ⟨⟨memory, status.trans kept, shows⟩, zones, registry.trans known, central⟩

theorem Holds.cleared (holds : state.Holds id before) (key : ActionKey) (mine : key.zoneId = id) :
    (before.status.clear key).1 = .ok () ∧ (state.withRows key.action 0).Holds id
      { before with status := (before.status.clear key).2 } := by
  obtain ⟨⟨memory, kept, shows⟩, registry⟩ := holds
  subst mine
  rw [kept]
  refine ⟨rfl, ⟨_, rfl, ?_⟩, registry⟩
  intro action
  unfold withRows
  by_cases same : action = key.action
  · subst same
    rw [((Shows.refl memory key).clear).content]
    simp
  · have different : (⟨key.zoneId, action⟩ : ActionKey) ≠ key := fun equal =>
      same (congrArg ActionKey.action equal)
    rw [content_clear_of_ne different]
    simp [same, shows]

theorem Holds.wrote (holds : state.Holds id before) (key : ActionKey) (mine : key.zoneId = id)
    (clock : Status.Clock) (server : Nameserver) (status : Status) (serial : Option UInt32) :
    (before.status.store clock key server status serial).1 = .ok () ∧
      (state.withRows key.action
        (putAmong (server, status, serial) (state.rows key.action))).Holds id
          { before with status := (before.status.store clock key server status serial).2 } := by
  obtain ⟨⟨memory, kept, shows⟩, registry⟩ := holds
  subst mine
  rw [kept]
  refine ⟨rfl, ⟨_, rfl, ?_⟩, registry⟩
  intro action
  unfold withRows
  by_cases same : action = key.action
  · subst same
    rw [((Shows.refl memory key).store).content, coe_put, shows]
    simp
  · have different : (⟨key.zoneId, action⟩ : ActionKey) ≠ key := fun equal =>
      same (congrArg ActionKey.action equal)
    rw [content_store_of_ne different]
    simp [same, shows]

theorem Holds.delivered (holds : state.Holds id before) (report : Registry.Report)
    (mine : report.zoneId = id) (now : Timestamp) :
    (before.registry.deliver report now).1 = .ok () ∧ (state.reported report).Holds id
      { before with registry := (before.registry.deliver report now).2 } := by
  obtain ⟨rows, zones, kept, accepting, central, reports⟩ := holds
  subst mine
  obtain ⟨accepted, still, told⟩ := Registry.Memory.deliver_accepting accepting report now
  rw [kept]
  refine ⟨accepted, rows, (zones.deliver report now).2, rfl, still, ?_, ?_⟩
  · rcases zones.zone?_deliver report now report.zoneId with ⟨refused, -⟩ | ⟨-, left⟩
    · exact absurd accepted refused
    · rw [left, if_pos rfl]
      unfold reported
      dsimp only
      rw [← central]
      cases zones.zone? report.zoneId with
      | none => rfl
      | some zone => exact report.leaves_untimed now zone
  · rw [told, List.filter_append, reports]
    simp [reported]

theorem Holds.following (holds : state.Holds id before) (concerns : Concerns id effect)
    (fits : behaviour.Fits ⟨effect, reply⟩)
    (answer : Answers behaviour.timely before effect reply after) :
    ∃ later, state.Meets behaviour effect reply later ∧ later.Holds id after := by
  cases effect with
  | clearRows key =>
      obtain ⟨rfl, rfl⟩ := answer.clearRows
      obtain ⟨replied, cleared⟩ := holds.cleared key concerns
      exact ⟨_, ⟨replied, rfl⟩, cleared⟩
  | storeRow key server status serial =>
      obtain ⟨clock, rfl, rfl⟩ := answer.storeRow
      obtain ⟨replied, wrote⟩ := holds.wrote key concerns clock server status serial
      exact ⟨_, ⟨replied, rfl⟩, wrote⟩
  | readRows key =>
      obtain ⟨rfl, clock, timely, replied⟩ := answer.readRows
      refine ⟨state, ⟨?_, rfl⟩, holds⟩
      obtain ⟨⟨memory, kept, shows⟩, -⟩ := holds
      unfold Behaviour.timely at timely
      rw [kept] at replied timely
      change key.zoneId = id at concerns
      subst concerns
      refine ⟨_, replied, ?_⟩
      rw [← shows, content_retrieve timely, Multiset.filter_coe]
  | deliver report =>
      obtain ⟨moment, rfl, rfl⟩ := answer.deliver
      obtain ⟨replied, delivered⟩ := holds.delivered report concerns moment
      exact ⟨_, ⟨replied, rfl⟩, delivered⟩
  | reapRows _ | findZones _ | askSerial _ _ | now | elapsed | fork _ _ | detach _ | awaitTick _
  | stopTimers => cases concerns
  | _ => exact ⟨state, ⟨fits, rfl⟩, holds.unchanged (answer.unchanged.1 rfl) (answer.unchanged.2.1 rfl)⟩

theorem Holds.frame {timing : Timing} (holds : state.Holds id before) (different : other ≠ id)
    (concerns : Concerns other effect) (answer : Answers timing before effect reply after) :
    state.Holds id after := by
  have elsewhere : ∀ {key : ActionKey} {action : ZoneAction}, key.zoneId = other →
      (⟨id, action⟩ : ActionKey) ≠ key := by
    rintro key action rfl rfl
    exact different rfl
  cases effect with
  | clearRows key =>
      obtain ⟨-, rfl⟩ := answer.clearRows
      obtain ⟨⟨memory, kept, shows⟩, registry⟩ := holds
      rw [kept]
      refine ⟨⟨_, rfl, ?_⟩, registry⟩
      intro action
      rw [content_clear_of_ne (elsewhere concerns), shows]
  | storeRow key server status serial =>
      obtain ⟨clock, -, rfl⟩ := answer.storeRow
      obtain ⟨⟨memory, kept, shows⟩, registry⟩ := holds
      rw [kept]
      refine ⟨⟨_, rfl, ?_⟩, registry⟩
      intro action
      rw [content_store_of_ne (elsewhere concerns), shows]
  | deliver report =>
      obtain ⟨moment, -, rfl⟩ := answer.deliver
      obtain ⟨rows, zones, kept, accepting, central, reports⟩ := holds
      change report.zoneId = other at concerns
      obtain ⟨accepted, still, told⟩ := Registry.Memory.deliver_accepting accepting report moment
      rw [kept]
      refine ⟨rows, (zones.deliver report moment).2, rfl, still, ?_, ?_⟩
      · rcases zones.zone?_deliver report moment id with ⟨refused, -⟩ | ⟨-, left⟩
        · exact absurd accepted refused
        · rw [left, if_neg (concerns ▸ different), central]
      · rw [told, List.filter_append, reports]
        simp [concerns, different]
  | reapRows _ | findZones _ | askSerial _ _ | now | elapsed | fork _ _ | detach _ | awaitTick _
  | stopTimers => cases concerns
  | _ => exact holds.unchanged (answer.unchanged.1 rfl) (answer.unchanged.2.1 rfl)

end ZoneState

end Propagation

end ZonePropagation
