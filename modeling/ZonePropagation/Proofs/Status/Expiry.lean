import Mathlib
import ZonePropagation.Proofs.Status.History
/-!
Rows that are kept in the process expire.

The rows that are read of a key are those that stand after the history of the store and were
written less than the lifetime ago.  Whether and when expired rows were removed cannot be read off
them, and neither can changes of other keys.
-/

namespace ZonePropagation.Status

namespace Memory

def write (memory : Memory) (elapsed : Nat) (row : StatusRecord) : Memory :=
  memory.store ⟨elapsed, row.updatedAt⟩ row.zoneId row.action row.nameserver row.status row.serial

theorem entries_write (memory : Memory) (elapsed : Nat) (row : StatusRecord) :
    (memory.write elapsed row).entries =
      memory.entries.filter (fun entry => !entry.record.sameKey row) ++
        [⟨row, elapsed + memory.ttl⟩] := rfl

def liveAt (memory : Memory) (key : ActionKey) (time : Nat) : List Entry :=
  memory.entries.filter fun entry =>
    entry.record.isFor key.zoneId key.action && !entry.isExpired time

theorem liveAt_write (memory : Memory) (elapsed : Nat) (row : StatusRecord) (key : ActionKey)
    (time : Nat) :
    (memory.write elapsed row).liveAt key time =
      (memory.liveAt key time).filter (fun entry => !entry.record.sameKey row) ++
        [(⟨row, elapsed + memory.ttl⟩ : Entry)].filter fun entry =>
          entry.record.isFor key.zoneId key.action && !entry.isExpired time := by
  rw [liveAt, entries_write, List.filter_append, List.filter_filter, liveAt, List.filter_filter]
  simp only [Bool.and_comm]

theorem liveAt_clear (memory : Memory) (cleared key : ActionKey) (time : Nat) :
    (memory.clear cleared.zoneId cleared.action).liveAt key time =
      (memory.liveAt key time).filter fun entry =>
        !entry.record.isFor cleared.zoneId cleared.action := by
  unfold liveAt clear
  rw [List.filter_filter, List.filter_filter]
  simp only [Bool.and_comm]

theorem liveAt_evictExpired (memory : Memory) (key : ActionKey) {elapsed time : Nat}
    (later : elapsed ≤ time) :
    ((memory.evictExpired elapsed).1).liveAt key time = memory.liveAt key time := by
  unfold liveAt evictExpired remove
  rw [List.filter_filter]
  apply List.filter_congr
  intro entry _member
  have sooner : entry.isExpired elapsed = true → entry.isExpired time = true := by
    simp only [Entry.isExpired, decide_eq_true_eq]
    omega
  grind

theorem key_of_mem_liveAt {memory : Memory} {key : ActionKey} {time : Nat} {entry : Entry}
    (member : entry ∈ memory.liveAt key time) : entry.record.key = key := by
  have mine := (List.mem_filter.mp member).2
  rw [Bool.and_eq_true, StatusRecord.isFor_iff] at mine
  exact mine.1

end Memory

namespace Expiry

inductive Event where
  | edit (change : Change)
  | evict
  | advance (millis : Nat)
deriving DecidableEq, Repr

namespace Event

def change? : Event → Option Change
  | .edit change => some change
  | .evict => none
  | .advance _ => none

def duration : Event → Nat
  | .advance millis => millis
  | .edit _ => 0
  | .evict => 0

/-- The event leaves the clock and the rows of the key alone: expired rows are removed, or another
key is changed. -/
def Spares (key : ActionKey) : Event → Prop
  | .edit change => change.key ≠ key
  | .evict => True
  | .advance _ => False

end Event

def span (events : List Event) : Nat := (events.map Event.duration).sum

structure Moment where
  memory : Memory
  elapsed : Nat

namespace Moment

def step (moment : Moment) : Event → Moment
  | .edit (.store row) => { moment with memory := moment.memory.write moment.elapsed row }
  | .edit (.clear key) => { moment with memory := moment.memory.clear key.zoneId key.action }
  | .evict => { moment with memory := (moment.memory.evictExpired moment.elapsed).1 }
  | .advance millis => { moment with elapsed := moment.elapsed + millis }

def rows (moment : Moment) (key : ActionKey) : List StatusRecord :=
  moment.memory.retrieve moment.elapsed key.zoneId key.action

end Moment

/-- A new store after the events, whose clock showed `start` when it was made. -/
def after (ttl start : Nat) (events : List Event) : Moment :=
  events.foldl Moment.step ⟨{ ttl }, start⟩

theorem after_append (ttl start : Nat) (events : List Event) (event : Event) :
    after ttl start (events ++ [event]) = (after ttl start events).step event := by
  simp [after]

theorem span_append (events : List Event) (event : Event) :
    span (events ++ [event]) = span events + event.duration := by
  simp [span]

/-! ### The rows that stand -/

/-- The entries of a store are rows that stand, each with the time that it has left, and no row
that stands is missing before its time is over. -/
structure Kept (ttl : Nat) (events : List Event) (moment : Moment) : Prop where
  lifetime : moment.memory.ttl = ttl
  distinct : moment.memory.Distinct
  stands : ∀ entry ∈ moment.memory.entries, ∃ since,
    Stands Event.change? events entry.record since ∧
      entry.expiresAt + span since = moment.elapsed + ttl
  present : ∀ row since, Stands Event.change? events row since → span since < ttl →
    ∃ entry ∈ moment.memory.entries, entry.record = row ∧
      entry.expiresAt + span since = moment.elapsed + ttl

theorem kept_new (ttl start : Nat) : Kept ttl [] ⟨{ ttl }, start⟩ where
  lifetime := rfl
  distinct := List.nodup_nil
  stands := by intro entry member; cases member
  present := fun _row _since stands => absurd stands not_stands_nil

variable {ttl : Nat} {events : List Event} {moment : Moment}

theorem Kept.write (kept : Kept ttl events moment) (row : StatusRecord) :
    Kept ttl (events ++ [.edit (.store row)]) (moment.step (.edit (.store row))) where
  lifetime := kept.lifetime
  distinct := kept.distinct.store
  stands := by
    intro entry member
    rcases List.mem_append.mp member with earlier | written
    · obtain ⟨inside, elsewhere⟩ := List.mem_filter.mp earlier
      obtain ⟨since, stands, left⟩ := kept.stands entry inside
      refine ⟨since ++ [.edit (.store row)],
        stands_append_iff.mpr (.inr ⟨since, rfl, stands, ?_⟩), ?_⟩
      · rintro change ⟨⟩ same
        rw [(StatusRecord.sameKey_iff _ _).mpr same.symm] at elsewhere
        cases elsewhere
      · rw [span_append]
        exact left
    · rw [List.mem_singleton.mp written]
      refine ⟨[], stands_append_iff.mpr (.inl ⟨rfl, rfl⟩), ?_⟩
      exact congrArg (moment.elapsed + ·) kept.lifetime
  present := by
    intro other since stands young
    rcases stands_append_iff.mp stands with ⟨rfl, wrote⟩ | ⟨earlier, rfl, before, spared⟩
    · cases wrote
      exact ⟨_, List.mem_append_right _ (List.mem_singleton.mpr rfl), rfl,
        congrArg (moment.elapsed + ·) kept.lifetime⟩
    · rw [span_append] at young ⊢
      obtain ⟨entry, member, rfl, left⟩ := kept.present other earlier before young
      refine ⟨entry, List.mem_append_left _ (List.mem_filter.mpr ⟨member, ?_⟩), rfl, left⟩
      rw [Bool.not_eq_true', Bool.eq_false_iff, Ne, StatusRecord.sameKey_iff]
      exact fun same => spared _ rfl same.symm

theorem Kept.remove (kept : Kept ttl events moment) (event : Event) {removes : Entry → Bool}
    (step : moment.step event = { moment with memory := (moment.memory.remove removes).1 })
    (timeless : event.duration = 0) (wrote : ∀ row, event.change? ≠ some (.store row))
    (removed : ∀ entry ∈ moment.memory.entries, removes entry = true →
      (∃ change ∈ event.change?, change.Replaces entry.record) ∨ entry.expiresAt ≤ moment.elapsed)
    (spared : ∀ entry ∈ moment.memory.entries, removes entry = false →
      ∀ change ∈ event.change?, ¬ change.Replaces entry.record) :
    Kept ttl (events ++ [event]) (moment.step event) := by
  rw [step]
  refine ⟨kept.lifetime, kept.distinct.of_sublist List.filter_sublist, ?_, ?_⟩
  · intro entry member
    obtain ⟨inside, stays⟩ := List.mem_filter.mp member
    obtain ⟨since, stands, left⟩ := kept.stands entry inside
    have notReplaced := spared entry inside (by simpa using stays)
    refine ⟨since ++ [event], stands_append_iff.mpr (.inr ⟨since, rfl, stands, notReplaced⟩), ?_⟩
    rw [span_append, timeless]
    exact left
  · intro row since stands young
    rcases stands_append_iff.mp stands with ⟨-, now⟩ | ⟨earlier, rfl, before, notReplaced⟩
    · exact absurd now (wrote row)
    · rw [span_append, timeless, Nat.add_zero] at young ⊢
      obtain ⟨entry, member, rfl, left⟩ := kept.present row earlier before young
      refine ⟨entry, List.mem_filter.mpr ⟨member, ?_⟩, rfl, left⟩
      rw [Bool.not_eq_true', Bool.eq_false_iff]
      intro removes
      rcases removed entry member removes with ⟨change, made, replaces⟩ | expired
      · exact notReplaced change made replaces
      · omega

theorem Kept.step (kept : Kept ttl events moment) (event : Event) :
    Kept ttl (events ++ [event]) (moment.step event) := by
  cases event with
  | edit change =>
      cases change with
      | store row => exact kept.write row
      | clear key =>
          refine kept.remove (.edit (.clear key)) rfl rfl (by simp [Event.change?]) ?_ ?_
          · intro entry _member mine
            exact .inl ⟨.clear key, rfl, (StatusRecord.isFor_iff _ _).mp mine⟩
          · rintro entry _member other change ⟨⟩ same
            rw [(StatusRecord.isFor_iff _ _).mpr same] at other
            cases other
  | evict =>
      refine kept.remove .evict rfl rfl (by simp [Event.change?]) ?_ (by simp [Event.change?])
      intro entry _member expired
      exact .inr (by simpa [Entry.isExpired] using expired)
  | advance millis =>
      refine ⟨kept.lifetime, kept.distinct, ?_, ?_⟩
      · intro entry member
        obtain ⟨since, stands, left⟩ := kept.stands entry member
        refine ⟨since ++ [.advance millis],
          stands_append_iff.mpr (.inr ⟨since, rfl, stands, by simp [Event.change?]⟩), ?_⟩
        rw [span_append]
        change _ + (_ + millis) = moment.elapsed + millis + ttl
        omega
      · intro row since stands young
        rcases stands_append_iff.mp stands with ⟨-, wrote⟩ | ⟨earlier, rfl, before, -⟩
        · cases wrote
        · rw [span_append] at young ⊢
          change span earlier + millis < ttl at young
          obtain ⟨entry, member, same, left⟩ := kept.present row earlier before (by omega)
          refine ⟨entry, member, same, ?_⟩
          change _ + (_ + millis) = moment.elapsed + millis + ttl
          omega

theorem kept_after (ttl start : Nat) (events : List Event) :
    Kept ttl events (after ttl start events) := by
  induction events using List.reverseRecOn with
  | nil => exact kept_new ttl start
  | append_singleton events event ih =>
      rw [after_append]
      exact ih.step event

theorem Kept.mem_rows_iff (kept : Kept ttl events moment) (key : ActionKey) (row : StatusRecord) :
    row ∈ moment.rows key ↔
      row.key = key ∧ ∃ since, Stands Event.change? events row since ∧ span since < ttl := by
  unfold Moment.rows Memory.retrieve
  rw [List.mem_map]
  simp only [List.mem_filter, Bool.and_eq_true, StatusRecord.isFor_iff, Bool.not_eq_true',
    Entry.isExpired, decide_eq_false_iff_not]
  constructor
  · rintro ⟨entry, ⟨member, mine, live⟩, rfl⟩
    obtain ⟨since, stands, left⟩ := kept.stands entry member
    exact ⟨mine, since, stands, by omega⟩
  · rintro ⟨mine, since, stands, young⟩
    obtain ⟨entry, member, rfl, left⟩ := kept.present row since stands young
    exact ⟨entry, ⟨member, mine, by omega⟩, rfl⟩

theorem mem_rows_edits_iff (start : Nat) (lasting : 0 < ttl) (changes : List Change)
    (key : ActionKey) (row : StatusRecord) :
    row ∈ (after ttl start (changes.map .edit)).rows key ↔
      row.key = key ∧ Standing some changes row := by
  have timeless : ∀ changes : List Change, span (changes.map .edit) = 0 := by
    intro changes
    induction changes with
    | nil => rfl
    | cons change rest ih => simpa [span, Event.duration] using ih
  rw [(kept_after ttl start _).mem_rows_iff]
  refine and_congr_right fun _mine => ?_
  constructor
  · rintro ⟨since, stands, -⟩
    obtain ⟨earlier, -, stands⟩ := stands_map_iff.mp stands
    exact ⟨earlier, stands⟩
  · rintro ⟨since, stands⟩
    exact ⟨_, stands_map_iff.mpr ⟨since, rfl, stands⟩, by rwa [timeless]⟩

/-! ### Events that cannot be read off a key -/

structure Alike (key : ActionKey) (left right : Moment) : Prop where
  elapsed : left.elapsed = right.elapsed
  lifetime : left.memory.ttl = right.memory.ttl
  live : ∀ time, left.elapsed ≤ time → left.memory.liveAt key time = right.memory.liveAt key time

variable {key : ActionKey} {left right : Moment}

theorem Alike.rows (alike : Alike key left right) : left.rows key = right.rows key := by
  have live := alike.live left.elapsed (Nat.le_refl _)
  unfold Moment.rows Memory.retrieve
  rw [← alike.elapsed]
  exact congrArg (List.map Entry.record) live

theorem Alike.step (alike : Alike key left right) (event : Event) :
    Alike key (left.step event) (right.step event) := by
  obtain ⟨elapsed, lifetime, live⟩ := alike
  cases event with
  | edit change =>
      cases change with
      | store row =>
          refine ⟨elapsed, lifetime, fun time later => ?_⟩
          change (left.memory.write left.elapsed row).liveAt key time =
            (right.memory.write right.elapsed row).liveAt key time
          rw [Memory.liveAt_write, Memory.liveAt_write, live time later, elapsed, lifetime]
      | clear cleared =>
          refine ⟨elapsed, lifetime, fun time later => ?_⟩
          change (left.memory.clear _ _).liveAt key time = (right.memory.clear _ _).liveAt key time
          rw [Memory.liveAt_clear, Memory.liveAt_clear, live time later]
  | evict =>
      refine ⟨elapsed, lifetime, fun time later => ?_⟩
      have leftLater : left.elapsed ≤ time := later
      change (left.memory.evictExpired left.elapsed).1.liveAt key time =
        (right.memory.evictExpired right.elapsed).1.liveAt key time
      rw [Memory.liveAt_evictExpired _ _ leftLater,
        Memory.liveAt_evictExpired _ _ (elapsed ▸ leftLater), live time leftLater]
  | advance millis =>
      refine ⟨congrArg (· + millis) elapsed, lifetime, fun time later => live time ?_⟩
      exact Nat.le_trans (Nat.le_add_right left.elapsed millis) later

theorem Alike.foldl (alike : Alike key left right) (events : List Event) :
    Alike key (events.foldl Moment.step left) (events.foldl Moment.step right) := by
  induction events generalizing left right with
  | nil => exact alike
  | cons event rest ih => exact ih (alike.step event)

theorem alike_of_spares (moment : Moment) {event : Event} (spares : event.Spares key) :
    Alike key (moment.step event) moment := by
  cases event with
  | edit change =>
      cases change with
      | store row =>
          have elsewhere : row.isFor key.zoneId key.action = false :=
            Bool.eq_false_iff.mpr fun mine => spares ((StatusRecord.isFor_iff _ _).mp mine)
          refine ⟨rfl, rfl, fun time _later => ?_⟩
          change (moment.memory.write moment.elapsed row).liveAt key time = _
          rw [Memory.liveAt_write, List.filter_singleton, elsewhere, Bool.false_and, cond_false,
            List.append_nil, List.filter_eq_self]
          intro entry member
          rw [Bool.not_eq_true', Bool.eq_false_iff, Ne, StatusRecord.sameKey_iff,
            StatusRecord.place_eq_iff]
          exact fun same => spares (same.1.symm.trans (Memory.key_of_mem_liveAt member))
      | clear cleared =>
          refine ⟨rfl, rfl, fun time _later => ?_⟩
          change (moment.memory.clear _ _).liveAt key time = _
          rw [Memory.liveAt_clear, List.filter_eq_self]
          intro entry member
          rw [Bool.not_eq_true', Bool.eq_false_iff, Ne, StatusRecord.isFor_iff]
          exact fun mine => spares (mine.symm.trans (Memory.key_of_mem_liveAt member))
  | evict => exact ⟨rfl, rfl, fun time later => Memory.liveAt_evictExpired moment.memory key later⟩
  | advance millis => exact spares.elim

/-- After any history, the rows that are read of a key are, one for each nameserver, those that
were written last since the key was last cleared, and less than the lifetime ago.  An event that
spares the key can be put into the history or taken out of it anywhere: no row that is read later
is another. -/
theorem rows_are_timed_map (ttl start : Nat) (key : ActionKey) :
    (∀ events,
      (((after ttl start events).rows key).map StatusRecord.nameserver).Nodup ∧
      ∀ row, row ∈ (after ttl start events).rows key ↔
        row.key = key ∧ ∃ since, Stands Event.change? events row since ∧ span since < ttl) ∧
    ∀ before event later, event.Spares key →
      (after ttl start (before ++ event :: later)).rows key =
        (after ttl start (before ++ later)).rows key := by
  refine ⟨fun events => ?_, fun before event later spares => ?_⟩
  · have kept := kept_after ttl start events
    exact ⟨kept.distinct.retrieve _, kept.mem_rows_iff key⟩
  · have alike := (alike_of_spares (before.foldl Moment.step ⟨{ ttl }, start⟩) spares).foldl later
    unfold after
    rw [List.foldl_append, List.foldl_append, List.foldl_cons]
    exact alike.rows

/-- A row that is written again lives on from then, with expired rows removed in between: nine of
its ten milliseconds after the second writing it is read with what was written then. -/
theorem rows_are_timed_map_rewritten :
    let key : ActionKey := ⟨"z", .update⟩
    let server : Nameserver := ⟨"ns1.test", 53⟩
    let first : StatusRecord := ⟨"z", .update, server, .pending, none, ⟨0, 0⟩⟩
    let second : StatusRecord := ⟨"z", .update, server, .success, some 7, ⟨6, 0⟩⟩
    let before : List Event := [.edit (.store first), .advance 6, .edit (.store second)]
    let later : List Event := [.advance 9]
    second ∈ (after 10 0 (before ++ later)).rows key ∧
      first ∉ (after 10 0 (before ++ later)).rows key ∧
      (after 10 0 (before ++ .evict :: later)).rows key =
        (after 10 0 (before ++ later)).rows key := by
  intro key server first second before later
  obtain ⟨shown, hidden⟩ := rows_are_timed_map 10 0 key
  obtain ⟨distinct, rows⟩ := shown (before ++ later)
  have stands : Stands Event.change? (before ++ later) second later :=
    ⟨[.edit (.store first), .advance 6], .edit (.store second), rfl, rfl,
      by simp [later, Event.change?]⟩
  have read := (rows second).mpr ⟨rfl, _, stands, by decide⟩
  refine ⟨read, fun also => ?_, hidden before .evict later trivial⟩
  exact absurd (List.inj_on_of_nodup_map distinct also read rfl) (by decide)

end Expiry

end ZonePropagation.Status
