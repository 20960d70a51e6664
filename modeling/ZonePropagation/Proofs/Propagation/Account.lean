import ZonePropagation.Proofs.Interleaving.Alone
import ZonePropagation.Proofs.Propagation.Polling
import ZonePropagation.Proofs.Status.Memory
/-!
The account of an attempt that works alone.

It has what the rows of the zone's action show, which reports were delivered, which locks are held,
and what targets and nameservers have answered.  Every effect of an attempt leads from an account
to the next one, whatever the answers are.
-/

namespace ZonePropagation.Propagation

open Interleaving Status.Memory

def rowOf (key : ActionKey) : Event → Option Shown
  | ⟨.storeRow written server status serial, _⟩ =>
      if written = key then some (server, status, serial) else none
  | _ => none

theorem rowOf_storeRow (key written : ActionKey) (server : Nameserver) (status : Status)
    (serial : Option UInt32) (reply : Except Fault Unit) :
    rowOf key ⟨.storeRow written server status serial, reply⟩ =
      if written = key then some (server, status, serial) else none := rfl

theorem rowOf_of_writesRows {key : ActionKey} {event : Event}
    (resting : writesRows event.effect = false) : rowOf key event = none := by
  obtain ⟨effect, reply⟩ := event
  cases effect with
  | storeRow _ _ _ _ => cases resting
  | _ => rfl

/-- No row has expired when the rows of its key are read. -/
def unexpired : Timing := fun before effect clock =>
  match effect, before.status with
  | .readRows key, .memory rows => ∀ entry ∈ rows.entries,
      entry.record.isFor key.zoneId key.action = true → entry.isExpired clock.elapsed = false
  | _, _ => True

structure Account where
  content : List Shown
  registry : Registry.Store
  reports : List Event
  held : List Nat
  accepted : Bool
  arrived : Nameserver → Bool

namespace Account

/-- The account is that of a situation.  All rows but those of the zone's action are the ones of an
earlier memory. -/
structure Holds (zone : Zone) (origin : Status.Memory) (account : Account) (now : Situation) :
    Prop where
  rows : ∃ memory, now.surroundings.status = .memory memory ∧
    Shows origin zone.key account.content memory
  registry : now.surroundings.registry = account.registry
  reports : now.past.filter (fun event => delivers event.effect) = account.reports
  held : now.surroundings.locks.held = account.held
  accepted : now.past.any isAcceptance = account.accepted
  arrived : ∀ server, now.past.any (isArrival zone server) = account.arrived server

/-- The event writes no rows but those of nameservers under the key, and delivers no report. -/
structure Modest (key : ActionKey) (event : Event) : Prop where
  rows : writesRows event.effect = (rowOf key event).isSome
  reports : delivers event.effect = false

theorem modest_of_aside {zone : Zone} {mine : Nameserver → Prop} {event : Event}
    (aside : Aside zone mine event) : Modest zone.key event where
  rows := by
    rw [rowOf_of_writesRows aside.rows]
    exact aside.rows
  reports := aside.reports

/-- The account after such events, the latest first. -/
def through (zone : Zone) (events : List Event) (account : Account) : Account :=
  { account with
    content := (events.filterMap (rowOf zone.key)).foldr put account.content
    held := events.foldr (fun event held => heldAfter held event.effect) account.held
    accepted := events.any isAcceptance || account.accepted
    arrived := fun server => events.any (isArrival zone server) || account.arrived server }

def opening (zone : Zone) (initial : Surroundings) (rows : Status.Memory) : Account where
  content := rows.content zone.key
  registry := initial.registry
  reports := []
  held := []
  accepted := false
  arrived := fun _ => false

theorem Holds.opening {zone : Zone} {initial : Surroundings} {rows : Status.Memory}
    (kept : initial.status = .memory rows) (free : initial.locks.held = []) :
    (Account.opening zone initial rows).Holds zone rows ⟨initial, []⟩ where
  rows := ⟨rows, kept, .refl rows zone.key⟩
  registry := rfl
  reports := rfl
  held := free
  accepted := rfl
  arrived := fun _ => rfl

section Effects

variable {zone : Zone} {origin : Status.Memory} {account : Account} {now : Situation}
  {timing : Timing} {after : Surroundings}

private theorem Holds.content {effect : Effect} {reply : Reply effect}
    (holds : account.Holds zone origin now)
    (answer : Answers timing now.surroundings effect reply after)
    (modest : Modest zone.key ⟨effect, reply⟩) :
    ∃ memory, after.status = .memory memory ∧
      Shows origin zone.key ((rowOf zone.key ⟨effect, reply⟩).elim account.content
        fun written => put written account.content) memory := by
  obtain ⟨memory, kept, shows⟩ := holds.rows
  cases writing : writesRows effect with
  | false =>
      have none : rowOf zone.key ⟨effect, reply⟩ = none := by
        rw [← Option.not_isSome_iff_eq_none, ← modest.rows]
        simp [writing]
      rw [none]
      exact ⟨memory, (answer.unchanged.1 writing).trans kept, shows⟩
  | true =>
      have some : (rowOf zone.key ⟨effect, reply⟩).isSome = true := by
        rw [← modest.rows]
        exact writing
      cases effect with
      | storeRow key server status serial =>
          obtain ⟨clock, replied, rfl⟩ := answer.storeRow
          rw [rowOf_storeRow] at some ⊢
          by_cases mine : key = zone.key
          · subst mine
            rw [if_pos rfl, kept]
            exact ⟨_, rfl, shows.store⟩
          · rw [if_neg mine] at some
            cases some
      | clearRows _ | reapRows _ => cases some
      | _ => cases writing

theorem Holds.following {effect : Effect} {reply : Reply effect}
    (holds : account.Holds zone origin now)
    (answer : Answers timing now.surroundings effect reply after)
    (modest : Modest zone.key ⟨effect, reply⟩) :
    (account.through zone [⟨effect, reply⟩]).Holds zone origin (now.following effect reply after)
    where
  rows := by
    obtain ⟨memory, kept, shows⟩ := holds.content answer modest
    refine ⟨memory, kept, ?_⟩
    unfold through
    cases row : rowOf zone.key ⟨effect, reply⟩ with
    | none => simpa [row] using shows
    | some written => simpa [row] using shows
  registry := (answer.unchanged.2.1 modest.reports).trans holds.registry
  reports := by
    rw [Situation.following, List.filter_cons_of_neg (by simp [modest.reports])]
    exact holds.reports
  held := by
    rw [Situation.following, answer.held, holds.held]
    rfl
  accepted := by
    rw [Situation.following, List.any_cons, holds.accepted]
    simp [through]
  arrived := by
    intro server
    rw [Situation.following, List.any_cons, holds.arrived]
    simp [through]

theorem through_cons (event : Event) (events : List Event) :
    (account.through zone events).through zone [event] = account.through zone (event :: events) := by
  unfold through
  simp only [List.filterMap_cons, List.filterMap_nil, List.foldr_cons, List.foldr_nil,
    List.any_cons, List.any_nil, Bool.or_false, Bool.or_assoc]
  cases rowOf zone.key event with
  | none => rfl
  | some written => rfl

theorem Holds.leads {events : List Event} (holds : account.Holds zone origin now)
    (leads : Leads timing now.surroundings events after)
    (modest : ∀ event ∈ events, Modest zone.key event) :
    (account.through zone events).Holds zone origin ⟨after, events ++ now.past⟩ := by
  induction leads with
  | nil =>
      have same : account.through zone [] = account := by
        simp [through]
      rw [same]
      exact holds
  | cons earlier answer ih =>
      have before := ih fun event member => modest event (by simp [member])
      rw [← through_cons]
      exact before.following answer (modest _ (by simp))

theorem Holds.stored {events : List Event} (holds : account.Holds zone origin now)
    (leads : Leads timing now.surroundings events after)
    (modest : ∀ event ∈ events, Modest zone.key event) {key : ActionKey} {server : Nameserver}
    {status : Status} {serial : Option UInt32} {reply : Except Fault Unit}
    (member : (⟨.storeRow key server status serial, reply⟩ : Event) ∈ events) :
    reply = .ok () := by
  induction leads with
  | nil => cases member
  | @cons events between after effect replied earlier answer ih =>
      rcases List.mem_cons.mp member with same | inEarlier
      · cases same
        obtain ⟨clock, outcome, -⟩ := answer.storeRow
        obtain ⟨memory, kept, -⟩ :=
          (holds.leads earlier fun event inside => modest event (by simp [inside])).rows
        change between.status = .memory memory at kept
        rw [kept] at outcome
        exact outcome
      · exact ih (fun event inside => modest event (by simp [inside])) inEarlier

theorem through_aside {events : List Event}
    (aside : ∀ event ∈ events, Aside zone (fun _ => False) event) :
    account.through zone events =
      { account with accepted := events.any isAcceptance || account.accepted } := by
  induction events with
  | nil => simp [through]
  | cons event events ih =>
      have first := aside event (by simp)
      rw [← through_cons, ih fun other member => aside other (by simp [member])]
      have still := heldAfter_of_turnsLocks first.locks
      have silent := fun server => first.answers server (by simp)
      simp [through, rowOf_of_writesRows first.rows, still, silent, Bool.or_assoc]

theorem Holds.leads_aside {events : List Event} (holds : account.Holds zone origin now)
    (leads : Leads timing now.surroundings events after)
    (aside : ∀ event ∈ events, Aside zone (fun _ => False) event) :
    Holds zone origin { account with accepted := events.any isAcceptance || account.accepted }
      ⟨after, events ++ now.past⟩ := by
  rw [← through_aside aside]
  exact holds.leads leads fun event member => modest_of_aside (aside event member)

theorem Holds.following_aside {effect : Effect} {reply : Reply effect}
    (holds : account.Holds zone origin now)
    (answer : Answers timing now.surroundings effect reply after)
    (aside : Aside zone (fun _ => False) ⟨effect, reply⟩)
    (refused : isAcceptance ⟨effect, reply⟩ = false) :
    account.Holds zone origin (now.following effect reply after) := by
  have followed := holds.leads_aside (.cons .nil answer) fun event member => by
    rw [List.mem_singleton.mp member]
    exact aside
  rw [List.any_cons, refused] at followed
  exact followed

theorem Holds.cleared {reply : Except Fault Unit} (holds : account.Holds zone origin now)
    (answer : Answers timing now.surroundings (.clearRows zone.key) reply after) :
    reply = .ok () ∧ Holds zone origin { account with content := [] }
      (now.following (.clearRows zone.key) reply after) := by
  obtain ⟨replied, left⟩ := answer.clearRows
  subst left
  obtain ⟨memory, kept, shows⟩ := holds.rows
  rw [kept] at replied ⊢
  refine ⟨replied, ⟨_, rfl, shows.clear⟩, holds.registry, holds.reports, holds.held, ?_, ?_⟩
  · exact holds.accepted
  · exact holds.arrived

theorem Holds.wrote {server : Nameserver} {status : Status} {serial : Option UInt32}
    {reply : Except Fault Unit} (holds : account.Holds zone origin now)
    (answer : Answers timing now.surroundings (.storeRow zone.key server status serial) reply
      after) :
    reply = .ok () ∧ Holds zone origin
      { account with content := put (server, status, serial) account.content }
      (now.following (.storeRow zone.key server status serial) reply after) := by
  have modest : Modest zone.key ⟨.storeRow zone.key server status serial, reply⟩ :=
    ⟨by simp [rowOf_storeRow, writesRows], rfl⟩
  constructor
  · apply holds.stored (.cons .nil answer) (by simpa using modest)
    exact List.mem_singleton.mpr rfl
  · have followed := holds.following answer modest
    unfold through at followed
    rw [List.filterMap_cons, rowOf_storeRow, if_pos rfl] at followed
    exact followed

theorem Holds.delivered {report : Registry.Report} {reply : Except Fault Unit}
    (holds : account.Holds zone origin now)
    (answer : Answers timing now.surroundings (.deliver report) reply after) :
    ∃ moment, reply = (account.registry.deliver report moment).1 ∧ Holds zone origin
      { account with
        registry := (account.registry.deliver report moment).2
        reports := ⟨.deliver report, reply⟩ :: account.reports }
      (now.following (.deliver report) reply after) := by
  obtain ⟨moment, replied, left⟩ := answer.deliver
  subst left
  rw [holds.registry] at replied ⊢
  refine ⟨moment, replied, holds.rows, rfl, ?_, holds.held, ?_, ?_⟩
  · rw [Situation.following, List.filter_cons_of_pos rfl, holds.reports]
  · exact holds.accepted
  · exact holds.arrived

theorem Holds.read {reply : Except Fault (List StatusRecord)}
    (holds : account.Holds zone origin now)
    (answer : Answers unexpired now.surroundings (.readRows zone.key) reply after) :
    (∃ rows, reply = .ok rows ∧ rows.map shown = account.content) ∧
      account.Holds zone origin (now.following (.readRows zone.key) reply after) := by
  constructor
  · obtain ⟨memory, kept, shows⟩ := holds.rows
    obtain ⟨-, clock, timely, replied⟩ := answer.readRows
    rw [kept] at replied
    refine ⟨_, replied, shows.retrieve ?_⟩
    unfold unexpired at timely
    rw [kept] at timely
    exact timely
  · exact holds.following_aside answer ⟨rfl, rfl, rfl, fun _ _ => rfl⟩ rfl

end Effects

end Account

end ZonePropagation.Propagation
