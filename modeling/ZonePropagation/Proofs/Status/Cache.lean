import Mathlib
import ZonePropagation.Proofs.Nameserver.TextForm
import ZonePropagation.Proofs.Status.History
import ZonePropagation.Proofs.Zone.Words
import ZonePropagation.Status.Cache
/-!
Rows that are kept in a shared cache.

The last colon of a hash's key stands before the action, so no two zone actions share a hash; and no
two nameservers share a field.  Hence the rows that are read of a zone's action are those that stand
after the history of the cache, whatever fields others have put beside them.
-/

namespace ZonePropagation

namespace Status

/-! ### Hashes -/

namespace CacheServer

private theorem find?_without (hashes : List (String × List (String × List UInt8)))
    (key other : String) :
    ((hashes.filter fun hash => hash.1 != key).find? fun hash => hash.1 == other) =
      if other = key then none else hashes.find? fun hash => hash.1 == other := by
  rw [List.find?_filter]
  split
  · next same =>
      rw [List.find?_eq_none]
      intro hash _member
      simp [same]
  · next apart =>
      refine congrArg (fun test => hashes.find? test) (funext fun hash => ?_)
      by_cases here : hash.1 = other
      · simp [here, apart]
      · simp [here]

theorem fields_setField (server : CacheServer) (key field other : String) (value : List UInt8) :
    (server.run (.setField key field value)).fields other =
      if other = key then setIn field value (server.fields key) else server.fields other := by
  unfold run
  dsimp only
  rw [fields, List.find?_append, find?_without]
  by_cases same : other = key
  · simp [same]
  · simp [same, Ne.symm same, fields]

theorem fields_delete (server : CacheServer) (key other : String) :
    (server.run (.delete key)).fields other =
      if other = key then [] else server.fields other := by
  unfold run
  rw [fields, find?_without]
  by_cases same : other = key
  · simp [same]
  · simp [same, fields]

variable {field : String} {value : List UInt8} {contents : List (String × List UInt8)}

theorem names_setIn (name : String) : name ∈ (setIn field value contents).map Prod.fst ↔
    name = field ∨ name ∈ contents.map Prod.fst := by
  induction contents with
  | nil => simp [setIn]
  | cons first rest ih =>
      obtain ⟨here, old⟩ := first
      unfold setIn
      split
      · next same =>
          rw [← eq_of_beq same]
          simp
      · rw [List.map_cons, List.mem_cons, ih, List.map_cons, List.mem_cons]
        exact or_left_comm

theorem nodup_setIn (distinct : (contents.map Prod.fst).Nodup) :
    ((setIn field value contents).map Prod.fst).Nodup := by
  induction contents with
  | nil => simp [setIn]
  | cons first rest ih =>
      obtain ⟨here, old⟩ := first
      rw [List.map_cons, List.nodup_cons] at distinct
      unfold setIn
      split
      · next same =>
          rw [List.map_cons, List.nodup_cons, ← eq_of_beq same]
          exact distinct
      · next other =>
          rw [List.map_cons, List.nodup_cons, names_setIn, not_or]
          exact ⟨⟨by simpa using other, distinct.1⟩, ih distinct.2⟩

theorem mem_setIn_iff (distinct : (contents.map Prod.fst).Nodup) (entry : String × List UInt8) :
    entry ∈ setIn field value contents ↔
      entry = (field, value) ∨ entry.1 ≠ field ∧ entry ∈ contents := by
  induction contents with
  | nil => simp [setIn]
  | cons first rest ih =>
      obtain ⟨here, old⟩ := first
      rw [List.map_cons, List.nodup_cons] at distinct
      have apart : entry ∈ rest → entry.1 ≠ here := fun member same =>
        distinct.1 (List.mem_map.mpr ⟨entry, member, same⟩)
      unfold setIn
      split
      · next same =>
          have sameName : here = field := eq_of_beq same
          subst sameName
          rw [List.mem_cons, List.mem_cons]
          constructor
          · exact Or.imp_right fun member => ⟨apart member, .inr member⟩
          · rintro (written | ⟨other, rfl | member⟩)
            · exact .inl written
            · exact absurd rfl other
            · exact .inr member
      · next other =>
          have otherName : here ≠ field := by simpa using other
          rw [List.mem_cons, ih distinct.2, List.mem_cons]
          constructor
          · rintro (rfl | written | ⟨elsewhere, member⟩)
            · exact .inr ⟨otherName, .inl rfl⟩
            · exact .inl written
            · exact .inr ⟨elsewhere, .inr member⟩
          · rintro (written | ⟨elsewhere, kept | member⟩)
            · exact .inr (.inl written)
            · exact .inl kept
            · exact .inr (.inr ⟨elsewhere, member⟩)

end CacheServer

namespace Cache

/-! ### Histories of a cache -/

/-- What happens to a cache: the manager changes rows, or somebody else sets a field. -/
inductive Event where
  | edit (change : Change)
  | foreign (hash field : String) (value : List UInt8)
deriving DecidableEq, Repr

def Event.change? : Event → Option Change
  | .edit change => some change
  | .foreign _ _ _ => none

def commands (cache : Cache) : Event → List CacheCommand
  | .edit (.store row) => cache.store row
  | .edit (.clear key) => [cache.clear key.zoneId key.action]
  | .foreign hash field value => [.setField hash field value]

def after (cache : Cache) (events : List Event) : CacheServer :=
  events.foldl (fun server event => (cache.commands event).foldl CacheServer.run server) {}

def hash (cache : Cache) (key : ActionKey) : String := cache.key key.zoneId key.action

/-- Fields of others are extra: they hold no row, and are not put in place of a row that stands. -/
def Extra (cache : Cache) (events : List Event) : Prop :=
  ∀ before hash field value later, events = before ++ .foreign hash field value :: later →
    Encoding.read? value = none ∧
      ∀ row, Standing Event.change? before row → cache.hash row.key = hash →
        row.nameserver.key ≠ field

theorem hash_injective (cache : Cache) : Function.Injective cache.hash := by
  have colonless : ∀ action : ZoneAction, ':' ∉ action.text.toList := by
    intro action
    cases action <;> decide
  have spelled : ∀ key : ActionKey, (cache.hash key).toList =
      (cache.keyStart.toList ++ ':' :: key.zoneId.toList) ++ ':' :: key.action.text.toList := by
    intro key
    simp [hash, Cache.key, String.toList_append]
  intro left right same
  have split := Text.splitLast?_append (cache.keyStart.toList ++ ':' :: left.zoneId.toList)
    (colonless left.action)
  rw [← spelled, same, spelled, Text.splitLast?_append _ (colonless right.action),
    Option.some_inj, Prod.mk.injEq] at split
  have sameZone := (List.cons.inj (List.append_cancel_left split.1)).2
  have sameAction := ZoneAction.text_injective (String.toList_inj.mp split.2)
  cases left
  cases right
  simp only at sameZone sameAction
  rw [String.toList_inj.mp sameZone, sameAction]

theorem after_append (cache : Cache) (events : List Event) (event : Event) :
    cache.after (events ++ [event]) =
      (cache.commands event).foldl CacheServer.run (cache.after events) := by
  simp [after]

theorem Extra.of_append {cache : Cache} {events : List Event} {event : Event}
    (extra : cache.Extra (events ++ [event])) : cache.Extra events := by
  rintro before hash field value later rfl
  exact extra before hash field value (later ++ [event]) (by simp)

def fieldOf (row : StatusRecord) : String × List UInt8 :=
  (row.nameserver.key, Encoding.write row)

structure Kept (cache : Cache) (events : List Event) (server : CacheServer) : Prop where
  distinct : ∀ hash, ((server.fields hash).map Prod.fst).Nodup
  present : ∀ row, Standing Event.change? events row →
    fieldOf row ∈ server.fields (cache.hash row.key)
  stands : ∀ key, ∀ entry ∈ server.fields (cache.hash key), Encoding.read? entry.2 = none ∨
    ∃ row, Standing Event.change? events row ∧ row.key = key ∧ entry = fieldOf row

theorem kept_new (cache : Cache) : Kept cache [] {} where
  distinct := fun _hash => List.nodup_nil
  present := fun _row stands => absurd stands not_standing_nil
  stands := by intro key entry member; cases member

variable {cache : Cache} {events : List Event} {server : CacheServer}

theorem Kept.survives (kept : Kept cache events server) {key : ActionKey}
    {entry : String × List UInt8} {event : Event} (member : entry ∈ server.fields (cache.hash key))
    (spared : ∀ row, row.key = key → entry = fieldOf row →
      ∀ change ∈ event.change?, ¬ change.Replaces row) :
    Encoding.read? entry.2 = none ∨
      ∃ row, Standing Event.change? (events ++ [event]) row ∧ row.key = key ∧
        entry = fieldOf row := by
  refine (kept.stands key entry member).imp_right ?_
  rintro ⟨row, stands, rowKey, field⟩
  have survives := standing_append_iff.mpr (.inr ⟨stands, spared row rowKey field⟩)
  exact ⟨row, survives, rowKey, field⟩

theorem fieldOf_ne {row other : StatusRecord} (sameKey : row.key = other.key)
    (apart : other.place ≠ row.place) : (fieldOf row).1 ≠ (fieldOf other).1 := by
  intro same
  have sameServer := Nameserver.key_injective same
  exact apart ((StatusRecord.place_eq_iff _ _).mpr ⟨sameKey.symm, sameServer.symm⟩)

theorem Kept.store (kept : Kept cache events server) (row : StatusRecord) :
    Kept cache (events ++ [.edit (.store row)])
      (server.run (.setField (cache.hash row.key) row.nameserver.key (Encoding.write row))) where
  distinct := by
    intro hash
    rw [CacheServer.fields_setField]
    split
    · exact CacheServer.nodup_setIn (kept.distinct _)
    · exact kept.distinct hash
  present := by
    intro other stands
    rw [CacheServer.fields_setField]
    rcases standing_append_iff.mp stands with wrote | ⟨before, spared⟩
    · cases wrote
      rw [if_pos rfl, CacheServer.mem_setIn_iff (kept.distinct _)]
      exact .inl rfl
    · have field := kept.present other before
      split
      · next same =>
          have sameKey := cache.hash_injective same
          rw [CacheServer.mem_setIn_iff (kept.distinct _)]
          exact .inr ⟨fieldOf_ne sameKey (spared _ rfl), same ▸ field⟩
      · exact field
  stands := by
    intro key entry member
    rw [CacheServer.fields_setField] at member
    split at member
    · next same =>
        have sameKey := cache.hash_injective same
        rw [CacheServer.mem_setIn_iff (kept.distinct _)] at member
        rcases member with rfl | ⟨elsewhere, member⟩
        · exact .inr ⟨row, standing_append_iff.mpr (.inl rfl), sameKey.symm, rfl⟩
        · rw [← same] at member
          refine kept.survives member ?_
          rintro other - rfl change ⟨⟩ samePlace
          exact elsewhere (congrArg (fun place => place.2.2.key) samePlace).symm
    · next apart =>
        refine kept.survives member ?_
        rintro other otherKey - change ⟨⟩ samePlace
        have sameKey := ((StatusRecord.place_eq_iff _ _).mp samePlace).1
        exact apart (congrArg cache.hash (otherKey.symm.trans sameKey.symm))

theorem Kept.clear (kept : Kept cache events server) (key : ActionKey) :
    Kept cache (events ++ [.edit (.clear key)]) (server.run (.delete (cache.hash key))) where
  distinct := by
    intro hash
    rw [CacheServer.fields_delete]
    split
    · exact List.nodup_nil
    · exact kept.distinct hash
  present := by
    intro row stands
    rcases standing_append_iff.mp stands with wrote | ⟨before, spared⟩
    · cases wrote
    · have apart : cache.hash row.key ≠ cache.hash key := fun same =>
        spared _ rfl (cache.hash_injective same)
      rw [CacheServer.fields_delete, if_neg apart]
      exact kept.present row before
  stands := by
    intro other entry member
    rw [CacheServer.fields_delete] at member
    split at member
    · cases member
    · next apart =>
        refine kept.survives member ?_
        rintro row rowKey - change ⟨⟩ cleared
        exact apart (congrArg cache.hash (rowKey.symm.trans cleared))

theorem Kept.foreign (kept : Kept cache events server) {hash field : String} {value : List UInt8}
    (unreadable : Encoding.read? value = none)
    (apart : ∀ row, Standing Event.change? events row → cache.hash row.key = hash →
      row.nameserver.key ≠ field) :
    Kept cache (events ++ [.foreign hash field value])
      (server.run (.setField hash field value)) where
  distinct := by
    intro other
    rw [CacheServer.fields_setField]
    split
    · exact CacheServer.nodup_setIn (kept.distinct _)
    · exact kept.distinct other
  present := by
    intro row stands
    rw [CacheServer.fields_setField]
    rcases standing_append_iff.mp stands with wrote | ⟨before, -⟩
    · cases wrote
    · have present := kept.present row before
      split
      · next same =>
          rw [CacheServer.mem_setIn_iff (kept.distinct _)]
          exact .inr ⟨apart row before same, same ▸ present⟩
      · exact present
  stands := by
    intro key entry member
    have spared : ∀ row : StatusRecord, row.key = key → entry = fieldOf row →
        ∀ change ∈ (Event.foreign hash field value).change?, ¬ change.Replaces row := by
      simp [Event.change?]
    rw [CacheServer.fields_setField] at member
    split at member
    · next same =>
        rw [CacheServer.mem_setIn_iff (kept.distinct _)] at member
        rcases member with rfl | ⟨-, member⟩
        · exact .inl unreadable
        · exact kept.survives (same ▸ member) spared
    · exact kept.survives member spared

theorem kept_after {events : List Event} (extra : cache.Extra events) :
    Kept cache events (cache.after events) := by
  induction events using List.reverseRecOn with
  | nil => exact kept_new cache
  | append_singleton events event ih =>
      have kept := ih extra.of_append
      rw [after_append]
      cases event with
      | edit change =>
          cases change with
          | store row => exact kept.store row
          | clear key => exact kept.clear key
      | foreign hash field value =>
          obtain ⟨unreadable, apart⟩ := extra events hash field value [] rfl
          exact kept.foreign unreadable apart

/-! ### What is read -/

theorem nodup_rows {contents : List (String × List UInt8)}
    (distinct : (contents.map Prod.fst).Nodup)
    (named : ∀ entry ∈ contents, ∀ read ∈ Encoding.read? entry.2,
      read.1.nameserver.key = entry.1) :
    ((rows contents).map StatusRecord.nameserver).Nodup := by
  have names : ((rows contents).map fun row => row.nameserver.key).Sublist
      (contents.map Prod.fst) := by
    induction contents with
    | nil => exact List.Sublist.slnil
    | cons entry rest ih =>
        rw [List.map_cons, List.nodup_cons] at distinct
        have later := ih distinct.2 fun other member => named other (List.mem_cons_of_mem _ member)
        unfold rows
        rw [List.filterMap_cons]
        cases decoded : Encoding.read? entry.2 with
        | none => exact later.cons _
        | some read =>
            have name := named entry List.mem_cons_self read decoded
            rw [List.map_cons, ← name]
            exact later.cons_cons _
  have spelled := names.nodup distinct
  rw [← Function.comp_def, ← List.map_map] at spelled
  exact spelled.of_map

/-- After any history of changes, with extra fields put in by others, the rows that are read of a
key are, one for each nameserver, those that were written last since the key was last cleared.  The
keys have hashes of their own, and the nameservers fields of their own. -/
theorem rows_are_last_written (cache : Cache) (events : List Event)
    (inverts : ∀ row, .edit (.store row) ∈ events →
      Encoding.read? (Encoding.write row) = some (row, []))
    (extra : cache.Extra events) (key : ActionKey) :
    (((cache.retrieve (cache.after events) key.zoneId key.action).map
      StatusRecord.nameserver).Nodup ∧
    ∀ row, row ∈ cache.retrieve (cache.after events) key.zoneId key.action ↔
      row.key = key ∧ Standing Event.change? events row) ∧
    (∀ other, cache.hash other = cache.hash key → other = key) ∧
    ∀ left right : Nameserver, left.key = right.key → left = right := by
  have kept := kept_after extra
  have decodes : ∀ row, Standing Event.change? events row →
      Encoding.read? (Encoding.write row) = some (row, []) := by
    intro row stands
    obtain ⟨written, member, wrote⟩ := stands.written
    cases written with
    | edit change =>
        cases wrote
        exact inverts row member
    | foreign hash field value => cases wrote
  refine ⟨⟨?_, ?_⟩, fun other same => cache.hash_injective same, fun left right same =>
    Nameserver.key_injective same⟩
  · refine nodup_rows (kept.distinct _) fun entry member read decoded => ?_
    rcases kept.stands key entry member with unreadable | ⟨row, stands, -, rfl⟩
    · rw [unreadable] at decoded
      cases decoded
    · rw [show (fieldOf row).2 = Encoding.write row from rfl, decodes row stands] at decoded
      cases decoded
      rfl
  · intro row
    unfold retrieve rows
    rw [List.mem_filterMap]
    constructor
    · rintro ⟨entry, member, decoded⟩
      rcases kept.stands key entry member with unreadable | ⟨other, stands, otherKey, rfl⟩
      · rw [unreadable] at decoded
        cases decoded
      · rw [show (fieldOf other).2 = Encoding.write other from rfl, decodes other stands] at decoded
        cases decoded
        exact ⟨otherKey, stands⟩
    · rintro ⟨rfl, stands⟩
      refine ⟨fieldOf row, kept.present row stands, ?_⟩
      rw [show (fieldOf row).2 = Encoding.write row from rfl, decodes row stands]
      rfl

/-- A row that was written twice, with a field of somebody else in its hash: what was written last
is read, and nothing else. -/
theorem rows_are_last_written_beside_foreign :
    let cache : Cache := ⟨"zonepool:status", 60⟩
    let key : ActionKey := ⟨"a:b", .update⟩
    let first : StatusRecord :=
      ⟨"a:b", .update, ⟨"2001:db8::1", 53⟩, .pending, none, ⟨1700000000, 0⟩⟩
    let second : StatusRecord :=
      ⟨"a:b", .update, ⟨"2001:db8::1", 53⟩, .success, some 7, ⟨1700000005, 0⟩⟩
    let other : Nameserver := ⟨"ns1.test", 53⟩
    let events : List Event := [.edit (.store first),
      .foreign "zonepool:status:a:b:UPDATE" other.key [255], .edit (.store second)]
    second ∈ cache.retrieve (cache.after events) key.zoneId key.action ∧
      first ∉ cache.retrieve (cache.after events) key.zoneId key.action := by
  intro cache key first second other events
  have inverts : ∀ row, .edit (.store row) ∈ events →
      Encoding.read? (Encoding.write row) = some (row, []) := by
    intro row member
    have either : row = first ∨ row = second := by simpa [events] using member
    rcases either with rfl | rfl
    · decide +kernel
    · decide +kernel
  have extra : cache.Extra events := by
    intro before hash field value later split
    match before with
    | [written] =>
        simp only [events, List.cons_append, List.nil_append, List.cons.injEq,
          Event.foreign.injEq] at split
        obtain ⟨rfl, ⟨rfl, rfl, rfl⟩, rfl⟩ := split
        refine ⟨by decide +kernel, fun row stands _sameHash same => ?_⟩
        obtain ⟨event, member, wrote⟩ := stands.written
        rw [List.mem_singleton.mp member] at wrote
        cases wrote
        exact absurd (Nameserver.key_injective same) (by decide)
    | [] | [_, _] | _ :: _ :: _ :: _ => simp [events] at split
  have stands : Standing Event.change? events second :=
    ⟨[], [_, _], .edit (.store second), rfl, rfl, by simp⟩
  obtain ⟨⟨distinct, rows⟩, -⟩ := rows_are_last_written cache events inverts extra key
  have read := (rows second).mpr ⟨rfl, stands⟩
  exact ⟨read, fun also => absurd (List.inj_on_of_nodup_map distinct also read rfl) (by decide)⟩

end Cache

end Status

end ZonePropagation
