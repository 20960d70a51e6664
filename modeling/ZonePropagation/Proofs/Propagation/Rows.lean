import ZonePropagation.Proofs.Interleaving.Answers
import ZonePropagation.Proofs.Status.Memory
/-!
Where the rows that a manager reads come from.

With rows that are kept in the process, every row that is read was written before, and a nameserver
has one row at most among those that are read together.
-/

namespace ZonePropagation.Propagation

open Interleaving

def Written (past : List Event) (row : StatusRecord) : Prop :=
  ∃ reply, ⟨.storeRow ⟨row.zoneId, row.action⟩ row.nameserver row.status row.serial, reply⟩ ∈ past

structure FromWriting (past : List Event) (key : ActionKey) (rows : List StatusRecord) : Prop where
  distinct : (rows.map StatusRecord.nameserver).Nodup
  underKey : ∀ row ∈ rows, (⟨row.zoneId, row.action⟩ : ActionKey) = key
  written : ∀ row ∈ rows, Written past row

structure Traced (now : Situation) : Prop where
  kept : ∃ memory, now.surroundings.status = .memory memory ∧ memory.Distinct ∧
    ∀ entry ∈ memory.entries, Written now.past entry.record
  read : ∀ key rows, ⟨.readRows key, .ok rows⟩ ∈ now.past → FromWriting now.past key rows

theorem Written.later {past rest : List Event} {row : StatusRecord} (written : Written past row)
    (more : past <:+ rest) : Written rest row := by
  obtain ⟨reply, member⟩ := written
  exact ⟨reply, more.mem member⟩

theorem FromWriting.later {past rest : List Event} {key : ActionKey} {rows : List StatusRecord}
    (from_writing : FromWriting past key rows) (more : past <:+ rest) : FromWriting rest key rows where
  distinct := from_writing.distinct
  underKey := from_writing.underKey
  written := fun row member => (from_writing.written row member).later more

theorem FromWriting.retrieve {past : List Event} {memory : Status.Memory} {key : ActionKey}
    (elapsed : Nat) (distinct : memory.Distinct)
    (written : ∀ entry ∈ memory.entries, Written past entry.record) :
    FromWriting past key (memory.retrieve elapsed key.zoneId key.action) where
  distinct := distinct.retrieve elapsed
  underKey := by
    intro row member
    obtain ⟨sameZone, sameAction, -⟩ := Status.Memory.mem_retrieve member
    rw [sameZone, sameAction]
  written := by
    intro row member
    obtain ⟨-, -, entry, inside, rfl⟩ := Status.Memory.mem_retrieve member
    exact written entry inside

private theorem kept_following {timing : Timing} {now : Situation} {effect : Effect}
    {reply : Reply effect} {after : Surroundings} {memory : Status.Memory}
    (same : now.surroundings.status = .memory memory) (distinct : memory.Distinct)
    (written : ∀ entry ∈ memory.entries, Written now.past entry.record)
    (answer : Answers timing now.surroundings effect reply after) :
    ∃ left, after.status = .memory left ∧ left.Distinct ∧
      ∀ entry ∈ left.entries, Written (⟨effect, reply⟩ :: now.past) entry.record := by
  have still : ∀ entry ∈ memory.entries, Written (⟨effect, reply⟩ :: now.past) entry.record :=
    fun entry member => (written entry member).later (List.suffix_cons _ _)
  cases writing : writesRows effect with
  | false => exact ⟨memory, by rw [answer.unchanged.1 writing, same], distinct, still⟩
  | true =>
      cases effect with
      | clearRows key =>
          obtain ⟨-, left⟩ := answer.clearRows
          rw [same] at left
          refine ⟨memory.clear key.zoneId key.action, by rw [left]; rfl,
            distinct.of_sublist Status.Memory.clear_sublist, ?_⟩
          exact fun entry member => still entry (Status.Memory.clear_sublist.mem member)
      | storeRow key server status serial =>
          obtain ⟨clock, -, left⟩ := answer.storeRow
          rw [same] at left
          refine ⟨memory.store clock key.zoneId key.action server status serial,
            by rw [left]; rfl, distinct.store, ?_⟩
          intro entry member
          rcases Status.Memory.mem_store member with earlier | new
          · exact still entry earlier
          · rw [new]
            exact ⟨reply, by simp⟩
      | reapRows ageSeconds =>
          obtain ⟨clock, -, left⟩ := answer.reapRows
          rw [same] at left
          have fewer : (memory.reapStale clock ageSeconds).1.entries.Sublist memory.entries :=
            Status.Memory.reapStale_sublist ageSeconds
          refine ⟨(memory.reapStale clock ageSeconds).1, by rw [left]; rfl,
            distinct.of_sublist fewer, ?_⟩
          exact fun entry member => still entry (fewer.mem member)
      | _ => cases writing

theorem Traced.following {timing : Timing} {now : Situation} {effect : Effect}
    {reply : Reply effect} {after : Surroundings} (traced : Traced now)
    (answer : Answers timing now.surroundings effect reply after) :
    Traced (now.following effect reply after) := by
  obtain ⟨⟨memory, same, distinct, written⟩, read⟩ := traced
  refine ⟨kept_following same distinct written answer, ?_⟩
  have more : now.past <:+ (now.following effect reply after).past := List.suffix_cons _ _
  intro key rows member
  rcases List.mem_cons.mp member with head | earlier
  · cases head
    obtain ⟨-, clock, -, replied⟩ := answer.readRows
    rw [same] at replied
    cases replied
    exact (FromWriting.retrieve clock.elapsed distinct written).later more
  · exact (read key rows earlier).later more

/-- All rows that a manager in use comes to read were written before, when it began with none. -/
theorem Traced.reaches {manager : Manager} {may : Operation → Prop} {initial : Surroundings}
    {world : World} {ttl : Nat} (empty : initial.status = .memory { ttl })
    (run : World.Reaches manager may (.opening initial) world) : Traced world.now := by
  induction run with
  | refl =>
      refine ⟨⟨{ ttl }, empty, List.nodup_nil, ?_⟩, ?_⟩
      · intro entry member
        cases member
      · intro key rows member
        cases member
  | tail _earlier step ih =>
      rcases step.situation with same | ⟨effect, reply, after, answer, same⟩ |
        ⟨zones, zone, _kept, same⟩
      · rw [same]
        exact ih
      · rw [same]
        exact ih.following answer
      · rw [same]
        exact ⟨ih.kept, ih.read⟩

end ZonePropagation.Propagation
