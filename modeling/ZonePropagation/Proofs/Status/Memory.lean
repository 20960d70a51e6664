import Mathlib.Data.List.Nodup
import ZonePropagation.Status.Store
/-!
Rows that are kept in the process.

A row is kept in the place of its zone, action and nameserver.  No operation puts two rows in one
place, and none makes up a row: all rows were there before, but for the one that is written.
-/

namespace ZonePropagation

def StatusRecord.place (row : StatusRecord) : String × ZoneAction × Nameserver :=
  (row.zoneId, row.action, row.nameserver)

theorem StatusRecord.sameKey_iff (left right : StatusRecord) :
    left.sameKey right = true ↔ left.place = right.place := by
  unfold sameKey isFor place
  simp only [Bool.and_eq_true, beq_iff_eq, Prod.mk.injEq]
  exact and_assoc

namespace Status.Memory

def Distinct (memory : Memory) : Prop :=
  (memory.entries.map fun entry => entry.record.place).Nodup

theorem Distinct.of_sublist {memory rest : Memory} (distinct : memory.Distinct)
    (fewer : rest.entries.Sublist memory.entries) : rest.Distinct :=
  (fewer.map _).nodup distinct

variable {memory : Memory} {clock : Clock} {zoneId : String} {action : ZoneAction}
  {server : Nameserver} {status : Status} {serial : Option UInt32}

theorem Distinct.store (distinct : memory.Distinct) :
    (memory.store clock zoneId action server status serial).Distinct := by
  unfold Distinct Memory.store
  rw [List.map_append, List.nodup_append]
  refine ⟨(List.filter_sublist.map _).nodup distinct, by simp, ?_⟩
  intro place earlier other written same
  obtain ⟨entry, member, rfl⟩ := List.mem_map.mp earlier
  obtain rfl := List.mem_singleton.mp written
  have elsewhere := (List.mem_filter.mp member).2
  rw [(StatusRecord.sameKey_iff _ _).mpr same] at elsewhere
  cases elsewhere

theorem mem_store {entry : Entry}
    (member : entry ∈ (memory.store clock zoneId action server status serial).entries) :
    entry ∈ memory.entries ∨
      entry.record = { zoneId, action, nameserver := server, status, serial
                       updatedAt := clock.now } := by
  rcases List.mem_append.mp member with earlier | written
  · exact .inl (List.mem_filter.mp earlier).1
  · rw [List.mem_singleton.mp written]
    exact .inr rfl

theorem clear_sublist : (memory.clear zoneId action).entries.Sublist memory.entries :=
  List.filter_sublist

theorem reapStale_sublist (ageSeconds : Nat) :
    (memory.reapStale clock ageSeconds).1.entries.Sublist memory.entries := by
  unfold reapStale
  dsimp only
  split
  · exact List.filter_sublist
  · exact List.filter_sublist.trans List.filter_sublist

theorem mem_retrieve {elapsed : Nat} {row : StatusRecord}
    (member : row ∈ memory.retrieve elapsed zoneId action) :
    row.zoneId = zoneId ∧ row.action = action ∧ ∃ entry ∈ memory.entries, entry.record = row := by
  obtain ⟨entry, kept, rfl⟩ := List.mem_map.mp member
  obtain ⟨inside, held⟩ := List.mem_filter.mp kept
  simp only [StatusRecord.isFor, Bool.and_eq_true, beq_iff_eq] at held
  exact ⟨held.1.1, held.1.2, entry, inside, rfl⟩

theorem Distinct.retrieve (distinct : memory.Distinct) (elapsed : Nat) :
    ((memory.retrieve elapsed zoneId action).map StatusRecord.nameserver).Nodup := by
  have places : ((memory.retrieve elapsed zoneId action).map StatusRecord.place).Nodup := by
    unfold Memory.retrieve
    rw [List.map_map]
    exact (List.filter_sublist.map _).nodup distinct
  apply List.Nodup.of_map (fun server => (zoneId, action, server))
  rw [List.map_map]
  refine (congrArg List.Nodup (List.map_congr_left ?_)).mp places
  intro row member
  obtain ⟨sameZone, sameAction, -⟩ := mem_retrieve member
  unfold StatusRecord.place
  rw [sameZone, sameAction]
  rfl

abbrev Shown := Nameserver × Status × Option UInt32

def shown (row : StatusRecord) : Shown := (row.nameserver, row.status, row.serial)

/-- Writes what is shown of a nameserver in place of what was shown before. -/
def put (written : Shown) (content : List Shown) : List Shown :=
  content.filter (fun other => other.1 != written.1) ++ [written]

theorem mem_put {other written : Shown} {content : List Shown}
    (member : other ∈ put written content) : other ∈ content ∨ other = written := by
  rcases List.mem_append.mp member with earlier | now
  · exact .inl (List.mem_filter.mp earlier).1
  · exact .inr (List.mem_singleton.mp now)

theorem servers_put (server : Nameserver) (written : Shown) (content : List Shown) :
    server ∈ (put written content).map Prod.fst ↔
      server = written.1 ∨ server ∈ content.map Prod.fst := by
  unfold put
  rw [List.map_append, List.mem_append, List.map_singleton, List.mem_singleton]
  by_cases same : server = written.1
  · simp [same]
  · simp only [same, or_false, false_or, List.mem_map, List.mem_filter, bne_iff_ne]
    constructor
    · rintro ⟨other, ⟨member, -⟩, rfl⟩
      exact ⟨other, member, rfl⟩
    · rintro ⟨other, member, rfl⟩
      exact ⟨other, ⟨member, same⟩, rfl⟩

theorem nodup_put {content : List Shown} (distinct : (content.map Prod.fst).Nodup)
    (written : Shown) : ((put written content).map Prod.fst).Nodup := by
  unfold put
  rw [List.map_append, List.nodup_append]
  refine ⟨(List.filter_sublist.map _).nodup distinct, by simp, ?_⟩
  rintro server earlier other now rfl
  obtain ⟨row, member, rfl⟩ := List.mem_map.mp earlier
  rw [List.map_singleton, List.mem_singleton] at now
  have elsewhere := (List.mem_filter.mp member).2
  rw [now, bne_self_eq_false] at elsewhere
  cases elsewhere

theorem put_perm {content : List Shown} {written : Shown}
    (distinct : (content.map Prod.fst).Nodup) (member : written ∈ content) :
    (put written content).Perm content := by
  obtain ⟨before, behind, rfl⟩ := List.append_of_mem member
  rw [List.map_append, List.map_cons, List.nodup_middle, List.nodup_cons] at distinct
  have others : (before ++ written :: behind).filter (fun other => other.1 != written.1) =
      before ++ behind := by
    rw [List.filter_append, List.filter_cons_of_neg (by simp), ← List.filter_append,
      List.filter_eq_self]
    intro other inside
    rw [bne_iff_ne]
    intro same
    rw [← same, ← List.map_append] at distinct
    exact distinct.1 (List.mem_map_of_mem inside)
  unfold put
  rw [others]
  exact (List.perm_append_singleton _ _).trans List.perm_middle.symm

theorem nodup_foldr_put (written : List Shown) :
    ((written.foldr put []).map Prod.fst).Nodup := by
  induction written with
  | nil => exact List.nodup_nil
  | cons first rest ih => exact nodup_put ih first

theorem servers_foldr_put (server : Nameserver) (written : List Shown) :
    server ∈ (written.foldr put []).map Prod.fst ↔ server ∈ written.map Prod.fst := by
  induction written with
  | nil => exact Iff.rfl
  | cons first rest ih => rw [List.foldr_cons, servers_put, ih, List.map_cons, List.mem_cons]

theorem mem_foldr_put {shown : Shown} {written : List Shown}
    (member : shown ∈ written.foldr put []) : shown ∈ written := by
  induction written with
  | nil => exact member
  | cons first rest ih =>
      rcases mem_put member with earlier | rfl
      · exact List.mem_cons_of_mem first (ih earlier)
      · exact List.mem_cons_self

/-- Of the rows from before, those of nameservers that a row was written for are gone. -/
theorem foldr_put_eq (written content : List Shown) :
    written.foldr put content =
      content.filter (fun other => other.1 ∉ written.map Prod.fst) ++ written.foldr put [] := by
  induction written with
  | nil => simp
  | cons first rest ih =>
      rw [List.foldr_cons, List.foldr_cons, ih]
      unfold put
      rw [List.filter_append, List.filter_filter, List.append_assoc]
      congr 1
      apply List.filter_congr
      intro other _member
      rw [Bool.eq_iff_iff, List.map_cons]
      simp [List.mem_cons]

/-- No row from before is left when rows were written for all their nameservers. -/
theorem foldr_put_of_covered {written content : List Shown}
    (covered : ∀ other ∈ content, other.1 ∈ written.map Prod.fst) :
    written.foldr put content = written.foldr put [] := by
  have gone : content.filter (fun other => other.1 ∉ written.map Prod.fst) = [] := by
    rw [List.filter_eq_nil_iff]
    intro other member
    simpa using covered other member
  rw [foldr_put_eq, gone, List.nil_append]

theorem foldr_put_of_distinct {written : List Shown}
    (distinct : (written.map Prod.fst).Nodup) : written.foldr put [] = written.reverse := by
  induction written with
  | nil => rfl
  | cons first rest ih =>
      rw [List.map_cons, List.nodup_cons] at distinct
      have kept : rest.reverse.filter (fun other => other.1 != first.1) = rest.reverse := by
        rw [List.filter_eq_self]
        intro other member
        rw [bne_iff_ne]
        intro same
        rw [List.mem_reverse] at member
        exact distinct.1 (same ▸ List.mem_map_of_mem member)
      rw [List.foldr_cons, ih distinct.2, List.reverse_cons]
      unfold put
      rw [kept]

def content (memory : Memory) (key : ActionKey) : List Shown :=
  (memory.entries.filter fun entry => entry.record.isFor key.zoneId key.action).map fun entry =>
    shown entry.record

theorem content_retrieve {memory : Memory} {key : ActionKey} {elapsed : Nat} {lasts : Shown → Bool}
    (timely : ∀ entry ∈ memory.entries, entry.record.isFor key.zoneId key.action = true →
      entry.isExpired elapsed = !lasts (shown entry.record)) :
    (memory.retrieve elapsed key.zoneId key.action).map shown =
      (memory.content key).filter fun row => lasts row = true := by
  unfold retrieve content
  rw [List.filter_map, List.filter_filter, List.map_map]
  congr 1
  apply List.filter_congr
  intro entry member
  cases mine : entry.record.isFor key.zoneId key.action with
  | false => simp
  | true => simp [timely entry member mine]

/-- The rows under a key show this, and all else is as in another memory. -/
structure Shows (origin : Memory) (key : ActionKey) (content : List Shown) (memory : Memory) :
    Prop where
  content : memory.content key = content
  cleared : memory.clear key.zoneId key.action = origin.clear key.zoneId key.action

section Shows

variable {origin : Memory} {key : ActionKey} {before : List Shown}

theorem Shows.refl (memory : Memory) (key : ActionKey) :
    Shows memory key (memory.content key) memory := ⟨rfl, rfl⟩

theorem Shows.clear (shows : Shows origin key before memory) :
    Shows origin key [] (memory.clear key.zoneId key.action) where
  content := by
    unfold Memory.content Memory.clear
    rw [List.filter_filter]
    simp
  cleared := by
    rw [← shows.cleared]
    unfold Memory.clear
    rw [List.filter_filter]
    simp

/-- With no rows left under the key, the memory is the other one without its rows of the key. -/
theorem Shows.eq_clear (shows : Shows origin key [] memory) :
    memory = origin.clear key.zoneId key.action := by
  rw [← shows.cleared]
  have none := List.map_eq_nil_iff.mp shows.content
  rw [List.filter_eq_nil_iff] at none
  unfold Memory.clear
  rw [List.filter_eq_self.mpr]
  intro entry member
  simpa using none entry member

private theorem isFor_written (key : ActionKey) (server : Nameserver) (status : Status)
    (serial : Option UInt32) (now : Timestamp) :
    (⟨key.zoneId, key.action, server, status, serial, now⟩ : StatusRecord).isFor
      key.zoneId key.action = true := by
  simp [StatusRecord.isFor]

theorem Shows.store (shows : Shows origin key before memory) :
    Shows origin key (put (server, status, serial) before)
      (memory.store clock key.zoneId key.action server status serial) where
  content := by
    rw [← shows.content]
    have mine := isFor_written key server status serial clock.now
    unfold Memory.content Memory.store put
    dsimp only
    rw [List.filter_append, List.map_append, List.filter_filter, List.filter_map,
      List.filter_filter, List.filter_singleton, mine]
    congr 2
    apply List.filter_congr
    intro entry _member
    unfold StatusRecord.sameKey
    dsimp only [Function.comp, shown]
    rw [Bool.not_and, bne]
    cases entry.record.isFor key.zoneId key.action with
    | false => simp
    | true => simp
  cleared := by
    rw [← shows.cleared]
    have mine := isFor_written key server status serial clock.now
    unfold Memory.clear Memory.store
    dsimp only
    rw [List.filter_append, List.filter_filter, List.filter_singleton, mine, Bool.not_true,
      cond_false, List.append_nil]
    congr 1
    apply List.filter_congr
    intro entry _member
    unfold StatusRecord.sameKey
    dsimp only
    cases entry.record.isFor key.zoneId key.action with
    | false => rfl
    | true => rfl

theorem Shows.retrieve (shows : Shows origin key before memory) {elapsed : Nat}
    (live : ∀ entry ∈ memory.entries, entry.record.isFor key.zoneId key.action = true →
      entry.isExpired elapsed = false) :
    (memory.retrieve elapsed key.zoneId key.action).map shown = before := by
  let every : Shown → Bool := fun _ => true
  have timely : ∀ entry ∈ memory.entries, entry.record.isFor key.zoneId key.action = true →
      entry.isExpired elapsed = !every (shown entry.record) := live
  rw [content_retrieve timely, shows.content]
  exact List.filter_true before

end Shows

end Status.Memory

end ZonePropagation
