import Mathlib.Data.Multiset.Basic
import ZonePropagation.Proofs.Propagation.Undelivered
import ZonePropagation.Proofs.Status.Untimed
/-!
Results that are recorded twice.

What a result makes of the stores depends on the rows as they are then: it may fail to read them,
find none, be counted, or make a verdict that is reported and clears them.  The same result once
more finds what the first one left, and changes nothing but the time of its own row.
-/

namespace ZonePropagation.Propagation

open Interleaving Status.Memory

noncomputable def consensus (pool : Pool) (expected : UInt32) (told : Multiset Shown) : Verdict :=
  Quorum.evaluate (told.toList.map fun row => ⟨"", .none, row.1, row.2.1, row.2.2, ⟨0, 0⟩⟩)
    pool.nameservers.length pool.threshold expected

def counting (pool : Pool) (told : List Shown) : Multiset Shown :=
  told.filter fun row => pool.hasNameserver row.1

theorem verdict_eq_consensus {pool : Pool} {expected : UInt32} (rows : List StatusRecord) :
    pool.verdict expected rows = consensus pool expected (counting pool (rows.map shown)) := by
  have same : (((counting pool (rows.map shown)).toList.map fun row =>
      (⟨"", .none, row.1, row.2.1, row.2.2, ⟨0, 0⟩⟩ : StatusRecord)).map shown).Perm
        ((rows.filter fun row => pool.hasNameserver row.nameserver).map shown) := by
    rw [List.map_map]
    apply (List.Perm.of_eq (List.map_id _)).trans
    rw [← Multiset.coe_eq_coe, Multiset.coe_toList, counting, List.filter_map]
    rfl
  unfold Pool.verdict consensus
  apply Quorum.evaluate_eq_of_perm
  · rw [confirmed_eq, confirmed_eq]
    exact (same.symm.filter _).map _
  · have settled := same.symm.countP_eq fun shown => shown.2.1 != .pending
    rw [List.countP_map, List.countP_map] at settled
    exact settled

/-! ### What a manager keeps -/

/-- The surroundings but for the locks, and the reports that were delivered. -/
structure Ledger where
  kept : Surroundings
  reports : List Event

def ledger (now : Situation) : Ledger :=
  ⟨{ now.surroundings with locks := {} }, deliveries now⟩

def Ledger.withRows (ledger : Ledger) (status : Status.Store) : Ledger :=
  { ledger with kept := { ledger.kept with status } }

structure Ledger.Holds (held : List Nat) (books : Ledger) (now : Situation) : Prop where
  same : ledger now = books
  held : now.surroundings.locks.held = held

section Effects

variable {timing : Timing} {now : Situation} {after : Surroundings} {books : Ledger}
  {held : List Nat} {key : ActionKey} {server : Nameserver} {status : Status}
  {serial : Option UInt32}

theorem Ledger.Holds.turned {effect : Effect} {reply : Reply effect} (holds : books.Holds held now)
    (turning : turnsLocks effect = true)
    (answer : Answers timing now.surroundings effect reply after) :
    books.Holds (heldAfter held effect) (now.following effect reply after) where
  same := by
    rw [← holds.same]
    cases effect with
    | acquire lock =>
        rw [answer.2]
        rfl
    | enter _ | release _ | retire _ _ | leave _ =>
        obtain ⟨Outside, channel, clock, outside, outside', _timely, outcome⟩ := answer
        cases outcome
        rfl
    | _ => cases turning
  held := by
    rw [← holds.held]
    exact answer.held

theorem Ledger.Holds.read {reply : Except Fault (List StatusRecord)} (holds : books.Holds held now)
    (answer : Answers unexpired now.surroundings (.readRows key) reply after) :
    reply.map (List.map shown) = books.kept.status.shown? key ∧
      books.Holds held (now.following (.readRows key) reply after) := by
  obtain ⟨rfl, clock, timely, rfl⟩ := answer.readRows
  refine ⟨?_, holds.same, holds.held⟩
  rw [← holds.same]
  apply Status.Store.shown_of_live
  intro rows kept
  unfold unexpired at timely
  rw [kept] at timely
  exact timely

theorem Ledger.Holds.wrote {reply : Except Fault Unit} (holds : books.Holds held now)
    (answer : Answers timing now.surroundings (.storeRow key server status serial) reply after) :
    ∃ clock, reply = (books.kept.status.store clock key server status serial).1 ∧
      (books.withRows (books.kept.status.store clock key server status serial).2).Holds held
        (now.following (.storeRow key server status serial) reply after) := by
  obtain ⟨clock, rfl, rfl⟩ := answer.storeRow
  rw [← holds.same]
  exact ⟨clock, rfl, rfl, holds.held⟩

theorem Ledger.Holds.cleared {reply : Except Fault Unit} (holds : books.Holds held now)
    (answer : Answers timing now.surroundings (.clearRows key) reply after) :
    reply = (books.kept.status.clear key).1 ∧
      (books.withRows (books.kept.status.clear key).2).Holds held
        (now.following (.clearRows key) reply after) := by
  obtain ⟨rfl, rfl⟩ := answer.clearRows
  rw [← holds.same]
  exact ⟨rfl, rfl, holds.held⟩

theorem Ledger.Holds.delivered {report : Registry.Report} {reply : Except Fault Unit}
    (holds : books.Holds held now)
    (answer : Answers timing now.surroundings (.deliver report) reply after) :
    ∃ moment, reply = (books.kept.registry.deliver report moment).1 ∧
      Ledger.Holds held
        ⟨{ books.kept with registry := (books.kept.registry.deliver report moment).2 },
          ⟨.deliver report, reply⟩ :: books.reports⟩
        (now.following (.deliver report) reply after) := by
  obtain ⟨moment, rfl, rfl⟩ := answer.deliver
  rw [← holds.same]
  exact ⟨moment, rfl, rfl, holds.held⟩

theorem Ledger.Holds.measured {thing : Measure} (holds : books.Holds held now)
    (answer : Answers timing now.surroundings (.measure thing) () after) :
    Ledger.Holds held ⟨{ books.kept with metrics := books.kept.metrics.add thing }, books.reports⟩
      (now.following (.measure thing) () after) := by
  obtain ⟨Outside, channel, clock, outside, outside', _timely, outcome⟩ := answer
  cases outcome
  rw [← holds.same]
  exact ⟨rfl, holds.held⟩

end Effects

/-! ### What a result makes of the stores -/

/-- What a result makes of a ledger, and what it is answered with.  Where rows are read it is
written, and the verdict on the rows that show it then is concluded if it is final. -/
inductive Enters (pool : Pool) (zone : Zone) (server : Nameserver) (status : Status)
    (serial : Option UInt32) (before : Ledger) : Except Fault (Option Verdict) → Ledger → Prop
  | unread {fault : Fault} (failed : before.kept.status.shown? zone.key = .error fault) :
      Enters pool zone server status serial before (.error fault) before
  | ignored (empty : before.kept.status.shown? zone.key = .ok []) :
      Enters pool zone server status serial before (.ok none) before
  | unjudged {clock : Status.Clock} {fault : Fault} {earlier : List Shown} {rows : Status.Store}
      (found : before.kept.status.shown? zone.key = .ok earlier) (present : earlier ≠ [])
      (wrote : (before.kept.status.store clock zone.key server status serial).2 = rows)
      (failed : rows.shown? zone.key = .error fault) :
      Enters pool zone server status serial before (.error fault) (before.withRows rows)
  | counted {clock : Status.Clock} {earlier told : List Shown} {rows : Status.Store}
      (found : before.kept.status.shown? zone.key = .ok earlier) (present : earlier ≠ [])
      (wrote : (before.kept.status.store clock zone.key server status serial).2 = rows)
      (shows : rows.shown? zone.key = .ok told)
      (unreported : (consensus pool zone.serial (counting pool told)).report? = none) :
      Enters pool zone server status serial before
        (.ok (some (consensus pool zone.serial (counting pool told)))) (before.withRows rows)
  | concluded {clock : Status.Clock} {earlier told : List Shown} {rows : Status.Store}
      {result : Status} {newest : UInt32} {moment : Timestamp} {metrics : Metrics}
      (found : before.kept.status.shown? zone.key = .ok earlier) (present : earlier ≠ [])
      (wrote : (before.kept.status.store clock zone.key server status serial).2 = rows)
      (shows : rows.shown? zone.key = .ok told)
      (final : (consensus pool zone.serial (counting pool told)).report? = some (result, newest)) :
      Enters pool zone server status serial before
        (.ok (some (consensus pool zone.serial (counting pool told))))
        ⟨{ before.kept with
            status := (rows.clear zone.key).2
            registry := (before.kept.registry.deliver ⟨zone.id, result, newest⟩ moment).2
            metrics },
          ⟨.deliver ⟨zone.id, result, newest⟩, .ok ()⟩ :: before.reports⟩

/-- A result has been recorded, with this outcome, where the ledger was this. -/
def Leaves (pool : Pool) (zone : Zone) (server : Nameserver) (status : Status)
    (serial : Option UInt32) (before : Ledger) (held : List Nat) (now : Situation)
    (outcome : Except Fault (Option Verdict)) : Prop :=
  ∃ after, Enters pool zone server status serial before outcome after ∧ after.Holds held now

section Alone

variable {α β : Type} {manager : Manager} {now : Situation} {goal : Situation → α → Prop}
  {final : Situation → β → Prop} {onError : Situation → Fault → Prop}

theorem Succeeds.tries {program : Fallible α} (succeeds : Succeeds manager goal program now) :
    (solo manager unexpired).Tries goal onError program now := by
  apply Conduct.Tries.weaken succeeds fun _ _ met => met
  intro later fault impossible
  cases impossible

theorem Succeeds.tries_pure {value : α} (met : goal now value) :
    (solo manager unexpired).Tries goal onError (Pure.pure value) now :=
  (Succeeds.pure met).tries

theorem solo_tries {program : Fallible α} {follow : α → Fallible β}
    (first : (solo manager unexpired).Tries goal onError program now)
    (second : ∀ later value, goal later value →
      (solo manager unexpired).Tries final onError (follow value) later) :
    (solo manager unexpired).Tries final onError (program >>= follow) now :=
  Conduct.Tries.bind first second fun _ _ _ unmoved met => unmoved ▸ met

end Alone

section Steps

variable {manager : Manager} {pool : Pool} {zone : Zone} {now : Situation} {books : Ledger}
  {held : List Nat} {policy : VerificationPolicy} {server : Nameserver} {status : Status}
  {serial : Option UInt32}

theorem Ledger.Holds.measures (holds : books.Holds held now) (thing : Measure) :
    (solo manager unexpired).Along (fun later _ => ∃ metrics,
        Ledger.Holds held ⟨{ books.kept with metrics }, books.reports⟩ later)
      (measure thing) now := by
  apply solo_performs_plain rfl
  intro reply left answer
  exact ⟨_, holds.measured answer⟩

theorem Ledger.Holds.delivers {newest : UInt32} (holds : books.Holds held now)
    (accepting : Accepting books.kept.registry zone) :
    (solo manager unexpired).Along (fun later accepted => accepted = true ∧ ∃ moment,
        Ledger.Holds held
          ⟨{ books.kept with
              registry := (books.kept.registry.deliver ⟨zone.id, status, newest⟩ moment).2 },
            ⟨.deliver ⟨zone.id, status, newest⟩, .ok ()⟩ :: books.reports⟩ later)
      (deliver policy zone status newest) now := by
  apply Conduct.Along.deliver (books.Holds held)
  · intro now holds
    apply solo_performs_plain rfl
    intro reply left answer
    obtain ⟨moment, replied, delivered⟩ := holds.delivered answer
    rw [accepting status newest moment] at replied
    subst replied
    exact ⟨rfl, moment, delivered⟩
  · rintro millis now ⟨impossible, -⟩
    cases impossible
  · rintro now ⟨impossible, -⟩
    cases impossible
  · rintro now later accepted rfl met
    exact met
  · exact holds

theorem Ledger.Holds.clears {key : ActionKey} {told : List Shown} (holds : books.Holds held now)
    (shows : books.kept.status.shown? key = .ok told) :
    Succeeds manager (fun later _ =>
        (books.withRows (books.kept.status.clear key).2).Holds held later)
      (clearRows key) now := by
  apply solo_performs_plain rfl
  intro reply left answer
  obtain ⟨replied, cleared⟩ := holds.cleared answer
  rw [(Status.Store.clear_of_shown shows).1] at replied
  subst replied
  exact cleared

theorem Ledger.Holds.stores {key : ActionKey} {told : List Shown} (holds : books.Holds held now)
    (shows : books.kept.status.shown? key = .ok told) :
    Succeeds manager (fun later _ => ∃ clock,
        (books.withRows (books.kept.status.store clock key server status serial).2).Holds held
          later)
      (storeRow key server status serial) now := by
  apply solo_performs_plain rfl
  intro reply left answer
  obtain ⟨clock, replied, wrote⟩ := holds.wrote answer
  rw [Status.Store.store_of_shown shows] at replied
  subst replied
  exact ⟨clock, wrote⟩

theorem Ledger.Holds.concludes {newest : UInt32} {told : List Shown} (holds : books.Holds held now)
    (accepting : Accepting books.kept.registry zone)
    (shows : books.kept.status.shown? zone.key = .ok told) :
    Succeeds manager (fun later _ => ∃ moment metrics, Ledger.Holds held
        ⟨{ books.kept with
            status := (books.kept.status.clear zone.key).2
            registry := (books.kept.registry.deliver ⟨zone.id, status, newest⟩ moment).2
            metrics },
          ⟨.deliver ⟨zone.id, status, newest⟩, .ok ()⟩ :: books.reports⟩ later)
      (conclude policy zone status newest) now := by
  unfold conclude
  apply Succeeds.bind (.lift (holds.measures _))
  rintro later _ ⟨metrics, counted⟩
  apply Succeeds.bind (.lift (counted.delivers accepting))
  rintro last accepted ⟨rfl, moment, reported⟩
  apply (reported.clears shows).weaken
  intro final _ cleared
  exact ⟨moment, metrics, cleared⟩

theorem Ledger.Holds.reads (holds : books.Holds held now) (key : ActionKey) :
    (solo manager unexpired).Tries
      (fun later rows => books.kept.status.shown? key = .ok (rows.map shown) ∧
        books.Holds held later)
      (fun later fault => books.kept.status.shown? key = .error fault ∧ books.Holds held later)
      (readRows key) now := by
  apply solo_performs_plain rfl
  intro reply left answer
  obtain ⟨shows, kept⟩ := holds.read answer
  cases reply with
  | ok rows => exact ⟨shows.symm, kept⟩
  | error fault => exact ⟨shows.symm, kept⟩

theorem Ledger.Holds.decides {earlier : List Shown} {rows : Status.Store} {clock : Status.Clock}
    (found : books.kept.status.shown? zone.key = .ok earlier) (present : earlier ≠ [])
    (wrote : (books.kept.status.store clock zone.key server status serial).2 = rows)
    (holds : (books.withRows rows).Holds held now)
    (accepting : Accepting books.kept.registry zone) :
    (solo manager unexpired).Tries
      (fun later verdict => Leaves pool zone server status serial books held later
        (.ok (some verdict)))
      (fun later fault => Leaves pool zone server status serial books held later (.error fault))
      (decide policy pool zone) now := by
  unfold decide
  apply solo_tries
  · apply (holds.reads zone.key).weaken (fun _ _ met => met)
    rintro later fault ⟨failed, kept⟩
    exact ⟨_, .unjudged found present wrote failed, kept⟩
  · rintro later read ⟨shows, kept⟩
    dsimp only
    rw [verdict_eq_consensus]
    cases report : (consensus pool zone.serial (counting pool (read.map shown))).report? with
    | none => exact Succeeds.tries_pure ⟨_, .counted found present wrote shows report, kept⟩
    | some reported =>
        obtain ⟨result, newest⟩ := reported
        apply solo_tries (kept.concludes accepting shows).tries
        rintro last _ ⟨moment, metrics, concluded⟩
        exact Succeeds.tries_pure ⟨_, .concluded found present wrote shows report, concluded⟩

theorem Ledger.Holds.turns (effect : Effect) (turning : turnsLocks effect = true)
    (free : ∀ lock, effect = .acquire lock → held = []) (holds : books.Holds held now) :
    (solo manager unexpired).Along (fun later _ => books.Holds (heldAfter held effect) later)
      (perform effect) now := by
  apply solo_performs
  · cases effect with
    | fork _ _ => cases turning
    | _ => rfl
  · intro lock waits
    rw [LockTable.isFree, holds.held, free lock waits]
    rfl
  · rintro work rfl
    cases turning
  · intro reply left answer
    exact holds.turned turning answer

theorem Ledger.Holds.locks {α : Type} {key : ActionKey} {work : Program α}
    (goal : α → Ledger → Prop) (holds : books.Holds [] now)
    (works : ∀ lock later, books.Holds [lock] later →
      (solo manager unexpired).Along (fun last value => ∃ after, goal value after ∧
        after.Holds [lock] last) work later) :
    (solo manager unexpired).Along (fun later value => ∃ after, goal value after ∧
      after.Holds [] later) (locked key work) now := by
  unfold locked
  apply Conduct.Along.bind (holds.turns (.enter key) rfl (fun _ waits => nomatch waits))
  intro entered lock opened
  apply Conduct.Along.bind (opened.turns (.acquire lock) rfl (fun _ _ => rfl))
  intro acquired _ taken
  apply Conduct.Along.bind (works lock acquired taken)
  rintro worked value ⟨after, met, kept⟩
  apply Conduct.Along.bind (kept.turns (.release lock) rfl (fun _ waits => nomatch waits))
  intro released _ freed
  apply Conduct.Along.bind (freed.turns (.retire key lock) rfl (fun _ waits => nomatch waits))
  intro retired _ dropped
  apply Conduct.Along.bind (dropped.turns (.leave lock) rfl (fun _ waits => nomatch waits))
  intro left _ done
  have none : [lock].erase lock = [] := by simp
  refine .pure fun last unmoved => unmoved ▸ ⟨after, met, ?_⟩
  rw [← none]
  exact done

theorem Ledger.Holds.recordsLocked (holds : books.Holds held now)
    (accepting : books.kept.status.shown? zone.key ≠ .ok [] →
      Accepting books.kept.registry zone) :
    (solo manager unexpired).Tries
      (fun later answer => Leaves pool zone server status serial books held later (.ok answer))
      (fun later fault => Leaves pool zone server status serial books held later (.error fault))
      (do
        if (← readRows zone.key).isEmpty then return none
        storeRow zone.key server status serial
        return some (← decide policy pool zone)) now := by
  apply solo_tries
  · apply (holds.reads zone.key).weaken fun _ _ met => met
    rintro later fault ⟨failed, kept⟩
    exact ⟨books, .unread failed, kept⟩
  · rintro later rows ⟨shows, kept⟩
    cases rows with
    | nil => exact Succeeds.tries_pure ⟨books, .ignored shows, kept⟩
    | cons row rows =>
        have present : books.kept.status.shown? zone.key ≠ .ok [] := by
          rw [shows]
          intro impossible
          cases impossible
        apply solo_tries (kept.stores shows).tries
        rintro last _ ⟨clock, wrote⟩
        apply solo_tries (wrote.decides shows (by simp) rfl (accepting present))
        intro final verdict left
        exact Succeeds.tries_pure left

theorem Ledger.Holds.records (known : manager.topology.get? zone.poolId = some pool)
    (member : pool.hasNameserver server = true) (holds : books.Holds [] now)
    (accepting : books.kept.status.shown? ⟨zone.id, zone.action.effective⟩ ≠ .ok [] →
      Accepting books.kept.registry zone) :
    (solo manager unexpired).Tries
      (fun later answer => Leaves pool { zone with action := zone.action.effective } server status
        serial books [] later (.ok answer))
      (fun later fault => Leaves pool { zone with action := zone.action.effective } server status
        serial books [] later (.error fault))
      (manager.record zone server status serial) now := by
  let effective := { zone with action := zone.action.effective }
  have ready : books.kept.status.shown? effective.key ≠ .ok [] →
      Accepting books.kept.registry effective := accepting
  unfold Manager.record
  apply solo_tries (pool_succeeds known).tries
  rintro later found ⟨rfl, rfl⟩
  dsimp only
  rw [member, Bool.not_true, if_neg Bool.false_ne_true]
  apply Conduct.Along.weaken (holds.locks
    (Enters pool effective server status serial books) ?_)
  · intro later outcome left
    cases outcome with
    | ok answer => exact left
    | error fault => exact left
  · intro lock last taken
    apply Conduct.Along.weaken (taken.recordsLocked ready)
    intro later outcome left
    cases outcome with
    | ok answer => exact left
    | error fault => exact left

end Steps

/-! ### The same result once more -/

/-- The rows are the same but for their times, and nothing else was kept or reported. -/
structure Ledger.Renewed (before after : Ledger) : Prop where
  rows : after.kept.status.untimed = before.kept.status.untimed
  zones : after.kept.registry = before.kept.registry
  reports : after.reports = before.reports

section Again

variable {pool : Pool} {zone : Zone} {server : Nameserver} {status : Status}
  {serial : Option UInt32} {before once twice : Ledger}
  {outcome again : Except Fault (Option Verdict)}

theorem Ledger.Renewed.refl (books : Ledger) : books.Renewed books := ⟨rfl, rfl, rfl⟩

theorem Enters.accepting (first : Enters pool zone server status serial before outcome once)
    (accepting : Accepting before.kept.registry zone)
    (present : once.kept.status.shown? zone.key ≠ .ok []) :
    Accepting once.kept.registry zone := by
  cases first with
  | unread _ | ignored _ | unjudged _ _ _ _ | counted _ _ _ _ _ => exact accepting
  | concluded _ _ _ shows _ => exact absurd (Status.Store.clear_of_shown shows).2 present

theorem Enters.of_empty (first : Enters pool zone server status serial before outcome once)
    (empty : before.kept.status.shown? zone.key = .ok []) : outcome = .ok none ∧ once = before := by
  cases first with
  | unread failed => cases failed.symm.trans empty
  | ignored _ => exact ⟨rfl, rfl⟩
  | unjudged found present _ _ | counted found present _ _ _ | concluded found present _ _ _ =>
      cases found.symm.trans empty
      exact absurd rfl present

/-- An answer is the consensus on the rows with the new one among them, whenever it was written. -/
theorem Enters.of_answer {verdict : Verdict}
    (first : Enters pool zone server status serial before (.ok (some verdict)) once) :
    ∃ told, (∀ clock, (before.kept.status.store clock zone.key server status serial).2.shown?
        zone.key = .ok told) ∧
      verdict = consensus pool zone.serial (counting pool told) := by
  have whenever : ∀ {told : List Shown} {clock : Status.Clock} {rows : Status.Store},
      (before.kept.status.store clock zone.key server status serial).2 = rows →
        rows.shown? zone.key = .ok told → ∀ other,
          (before.kept.status.store other zone.key server status serial).2.shown? zone.key =
            .ok told := by
    rintro told clock rows rfl shows other
    rw [Status.Store.shown_eq_of_untimed Status.Store.untimed_store_at]
    exact shows
  cases first with
  | counted _ _ wrote shows _ => exact ⟨_, whenever wrote shows, rfl⟩
  | concluded _ _ wrote shows _ => exact ⟨_, whenever wrote shows, rfl⟩

theorem Enters.counted_of_present {told : List Shown}
    (first : Enters pool zone server status serial before outcome once)
    (found : once.kept.status.shown? zone.key = .ok told) (present : told ≠ []) :
    (∃ clock, (before.kept.status.store clock zone.key server status serial).2 =
        once.kept.status) ∧
      (consensus pool zone.serial (counting pool told)).report? = none := by
  cases first with
  | unread failed =>
      rw [failed] at found
      cases found
  | ignored empty =>
      rw [empty] at found
      cases found
      exact absurd rfl present
  | unjudged _ _ _ failed =>
      cases failed.symm.trans found
  | counted _ _ wrote shows unreported =>
      cases shows.symm.trans found
      exact ⟨⟨_, wrote⟩, unreported⟩
  | concluded _ _ _ shows _ =>
      cases (Status.Store.clear_of_shown shows).2.symm.trans found
      exact absurd rfl present

theorem Enters.renewed (first : Enters pool zone server status serial before outcome once)
    (second : Enters pool zone server status serial once again twice) : once.Renewed twice := by
  have rewritten : ∀ {told : List Shown} {clock : Status.Clock} {rows : Status.Store},
      once.kept.status.shown? zone.key = .ok told → told ≠ [] →
        (once.kept.status.store clock zone.key server status serial).2 = rows →
          rows.untimed = once.kept.status.untimed := by
    rintro told clock rows found present rfl
    obtain ⟨⟨earlier, wrote⟩, -⟩ := first.counted_of_present found present
    rw [← wrote]
    exact Status.Store.untimed_store_twice
  cases second with
  | unread _ => exact .refl once
  | ignored _ => exact .refl once
  | unjudged found present wrote _ => exact ⟨rewritten found present wrote, rfl, rfl⟩
  | counted found present wrote _ _ => exact ⟨rewritten found present wrote, rfl, rfl⟩
  | concluded found present wrote shows final =>
      rw [Status.Store.shown_eq_of_untimed (rewritten found present wrote), found] at shows
      cases shows
      cases (first.counted_of_present found present).2.symm.trans final

end Again

/-! ### A call that is made twice -/

/-- The call has recorded a result with this outcome.  Made at once again it renews what is there;
without rows, or for a server outside the pool, it has changed nothing; and an answer depends on
what the rows of the pool's nameservers show once the result is among them. -/
structure Recording (manager : Manager) (pool : Pool) (zone : Zone) (server : Nameserver)
    (status : Status) (serial : Option UInt32) (agreed : Multiset Shown → Verdict)
    (initial : Surroundings) (once : Situation) (outcome : Except Fault (Option Verdict)) :
    Prop where
  renewed : Strand.Settles manager unexpired (fun twice _ => (ledger once).Renewed (ledger twice))
    once (.start manager (.record zone server status serial))
  ignored : server ∉ pool.nameservers ∨
      initial.status.shown? ⟨zone.id, zone.action.effective⟩ = .ok [] →
    outcome = .ok none ∧ deliveries once = [] ∧
      once.surroundings = { initial with locks := once.surroundings.locks }
  answered : ∀ verdict, outcome = .ok (some verdict) → ∃ told,
    (∀ clock, (initial.status.store clock ⟨zone.id, zone.action.effective⟩ server status
      serial).2.shown? ⟨zone.id, zone.action.effective⟩ = .ok told) ∧
      verdict = agreed (counting pool told)

section Calls

variable {manager : Manager} {pool : Pool} {zone : Zone} {now : Situation} {books : Ledger}
  {server : Nameserver} {status : Status} {serial : Option UInt32}

theorem stranger_settles (known : manager.topology.get? zone.poolId = some pool)
    (stranger : pool.hasNameserver server = false) :
    Strand.Settles manager unexpired
      (fun later result => result = .recorded (.ok none) ∧ later = now) now
      (.start manager (.record zone server status serial)) := by
  have nothing : Succeeds manager (fun later answer => answer = none ∧ later = now)
      (manager.record zone server status serial) now := by
    unfold Manager.record
    apply Succeeds.bind (pool_succeeds known)
    rintro later found ⟨rfl, rfl⟩
    dsimp only
    rw [stranger, Bool.not_false, if_pos rfl]
    exact Succeeds.pure ⟨rfl, rfl⟩
  apply Strand.Settles.of_along
  apply Conduct.Along.bind nothing
  rintro later (fault | answer) met
  · cases met
  · obtain ⟨rfl, rfl⟩ := met
    exact .pure fun last unmoved => ⟨rfl, unmoved.symm⟩

theorem records_settle (known : manager.topology.get? zone.poolId = some pool)
    (member : pool.hasNameserver server = true) (holds : books.Holds [] now)
    (accepting : books.kept.status.shown? ⟨zone.id, zone.action.effective⟩ ≠ .ok [] →
      Accepting books.kept.registry zone) :
    Strand.Settles manager unexpired (fun later result => ∃ outcome,
        result = .recorded outcome ∧ Leaves pool { zone with action := zone.action.effective }
          server status serial books [] later outcome) now
      (.start manager (.record zone server status serial)) := by
  apply Strand.Settles.of_along
  apply Conduct.Along.bind (holds.records known member accepting)
  intro later outcome left
  apply Conduct.Along.pure
  rintro last rfl
  cases outcome with
  | ok answer => exact ⟨.ok answer, rfl, left⟩
  | error fault => exact ⟨.error fault, rfl, left⟩

end Calls

/-- Recording the same result twice in a row leaves what recording it once leaves, but for the times
of rows, whatever the rows are; without rows or for a server outside the pool it changes nothing,
and the consensus it finds depends on nothing but the rows of the pool's nameservers. -/
theorem recorded_twice_as_once {manager : Manager} {pool : Pool} {zone : Zone}
    (known : manager.topology.get? zone.poolId = some pool) :
    ∃ agreed : Multiset Shown → Verdict, ∀ (initial : Surroundings) (server : Nameserver)
      (status : Status) (serial : Option UInt32), Accepting initial.registry zone →
        initial.locks.held = [] →
          Strand.Settles manager unexpired (fun once result => ∃ outcome,
              result = .recorded outcome ∧
                Recording manager pool zone server status serial agreed initial once outcome)
            ⟨initial, []⟩ (.start manager (.record zone server status serial)) := by
  refine ⟨consensus pool zone.serial, ?_⟩
  intro initial server status serial accepting free
  cases member : pool.hasNameserver server with
  | false =>
      apply (stranger_settles known member).weaken
      rintro once result ⟨rfl, rfl⟩
      refine ⟨.ok none, rfl, ?_, fun _ => ⟨rfl, rfl, rfl⟩, fun verdict answer => nomatch answer⟩
      apply (stranger_settles known member).weaken
      rintro twice result ⟨-, rfl⟩
      exact .refl _
  | true =>
      have opening : (ledger ⟨initial, []⟩).Holds [] ⟨initial, []⟩ := ⟨rfl, free⟩
      apply (records_settle known member opening fun _ => accepting).weaken
      rintro once result ⟨outcome, rfl, after, first, kept⟩
      refine ⟨outcome, rfl, ?_, ?_, ?_⟩
      · apply (records_settle known member kept (first.accepting accepting)).weaken
        rintro twice result ⟨again, -, later, second, held⟩
        rw [kept.same, held.same]
        exact first.renewed second
      · rintro (outside | empty)
        · rw [Pool.hasNameserver, List.contains_iff_mem] at member
          exact absurd member outside
        · obtain ⟨rfl, rfl⟩ := first.of_empty empty
          have same := congrArg Ledger.kept kept.same
          refine ⟨rfl, congrArg Ledger.reports kept.same, ?_⟩
          exact congrArg (fun kept : Surroundings =>
            { kept with locks := once.surroundings.locks }) same
      · rintro verdict rfl
        exact first.of_answer

private def poolOfTwo : Pool where
  id := "p"
  name := "p"
  nameservers := [⟨"a", 53⟩, ⟨"b", 53⟩]
  threshold := 50

private def managerOfTwo : Manager where
  topology := { pools := [poolOfTwo] }
  policy := { probe := ⟨1000, 100, 3⟩, detached := true }

private def awaitingTwo : Zone where
  id := "z"
  name := "z."
  serial := 10
  action := .none
  status := .pending
  poolId := "p"
  updatedAt := ⟨0, 0⟩

private def rowsOfTwo : Surroundings where
  status := .table {
    rows := [⟨"a", 53⟩, ⟨"b", 53⟩, ⟨"c", 53⟩].map fun server =>
      .ofRecord ⟨"z", .update, server, .pending, none, ⟨0, 0⟩⟩ }
  registry := .memory { zones := [awaitingTwo] }

theorem recorded_twice_as_once_two :
    managerOfTwo.topology.get? awaitingTwo.poolId = some poolOfTwo ∧
      ∃ agreed : Multiset Shown → Verdict, Accepting rowsOfTwo.registry awaitingTwo ∧
        rowsOfTwo.locks.held = [] ∧
          Strand.Settles managerOfTwo unexpired (fun once result => ∃ outcome,
              result = .recorded outcome ∧ Recording managerOfTwo poolOfTwo awaitingTwo ⟨"b", 53⟩
                .success (some 12) agreed rowsOfTwo once outcome)
            ⟨rowsOfTwo, []⟩
            (.start managerOfTwo (.record awaitingTwo ⟨"b", 53⟩ .success (some 12))) := by
  obtain ⟨agreed, recorded⟩ := @recorded_twice_as_once managerOfTwo poolOfTwo awaitingTwo rfl
  refine ⟨rfl, agreed, fun _ _ _ => rfl, rfl, ?_⟩
  exact recorded rowsOfTwo ⟨"b", 53⟩ .success (some 12) (fun _ _ _ => rfl) rfl

end ZonePropagation.Propagation
