import Mathlib.Data.List.Dedup
import ZonePropagation.Proofs.Propagation.Account
import ZonePropagation.Proofs.Quorum.Counting
/-!
A round of verifications: all nameservers of a pool, side by side.

In whatever order the verifications take their steps, each nameserver has one row afterwards, and
that row is a success exactly when the nameserver answered as the zone's action asks for.
-/

namespace ZonePropagation.Propagation

open Interleaving Status.Memory

/-- The row holds the result of its nameserver, as the nameservers' answers have it. -/
structure Fair (zone : Zone) (arrived : Nameserver → Bool) (shown : Shown) : Prop where
  settled : shown.2.1 ≠ .pending
  arrived : shown.2.1 = .success ↔ arrived shown.1 = true
  confirms : shown.2.1 = .success →
    Serial.isAtLeast (shown.2.2.getD zone.serial) zone.serial = true

structure Settled (pool : Pool) (zone : Zone) (content : List Shown)
    (arrived : Nameserver → Bool) : Prop where
  servers : (content.map Prod.fst).Perm pool.nameservers
  fair : ∀ shown ∈ content, Fair zone arrived shown

structure Verified (zone : Zone) (server : Nameserver) (status : Status) (serial : Option UInt32)
    (reply : Except Fault Unit) (rest : List Event) (share : Share) : Prop where
  operation : share.operation = .verify zone server
  events : share.events = ⟨.storeRow zone.key server status serial, reply⟩ :: rest
  result : share.result = .stored reply
  polled : Polled zone server rest (status, serial)

private def verifying : Operation → List Nameserver
  | .verify _ server => [server]
  | _ => []

namespace Verified

variable {zone : Zone} {server other : Nameserver} {status : Status} {serial : Option UInt32}
  {reply : Except Fault Unit} {rest : List Event} {share : Share}

theorem modest (verified : Verified zone server status serial reply rest share) :
    ∀ event ∈ share.events, Account.Modest zone.key event ∧ turnsLocks event.effect = false := by
  rw [verified.events]
  intro event member
  rcases List.mem_cons.mp member with rfl | inRest
  · exact ⟨⟨by simp [rowOf_storeRow, writesRows], rfl⟩, rfl⟩
  · have aside := verified.polled.aside event inRest
    exact ⟨Account.modest_of_aside aside, aside.locks⟩

theorem wrote (verified : Verified zone server status serial reply rest share) :
    ⟨.storeRow zone.key server status serial, reply⟩ ∈ share.events := by
  rw [verified.events]
  exact List.mem_cons_self

theorem refused (verified : Verified zone server status serial reply rest share) :
    share.events.any isAcceptance = false := by
  rw [verified.events, List.any_cons, verified.polled.refused]
  rfl

theorem rows (verified : Verified zone server status serial reply rest share) :
    share.events.filterMap (rowOf zone.key) = [(server, status, serial)] := by
  have none : rest.filterMap (rowOf zone.key) = [] := by
    rw [List.filterMap_eq_nil_iff]
    intro event member
    exact rowOf_of_writesRows (verified.polled.aside event member).rows
  rw [verified.events, List.filterMap_cons, rowOf_storeRow, if_pos rfl, none]

theorem servers (verified : Verified zone server status serial reply rest share) :
    (share.events.filterMap (rowOf zone.key)).map Prod.fst = verifying share.operation := by
  rw [verified.rows, verified.operation]
  rfl

theorem server_of_arrival (verified : Verified zone server status serial reply rest share)
    (arrived : share.events.any (isArrival zone other) = true) : other = server := by
  by_contra different
  rw [verified.events, List.any_cons] at arrived
  have none : rest.any (isArrival zone other) = false := by
    rw [List.any_eq_false]
    intro event member
    rw [(verified.polled.aside event member).answers other different]
    exact Bool.false_ne_true
  rw [none] at arrived
  cases arrived

theorem arrived_iff (verified : Verified zone server status serial reply rest share) :
    status = .success ↔ share.events.any (isArrival zone server) = true := by
  rw [verified.events, List.any_cons]
  exact verified.polled.arrived

end Verified

section Round

variable {pool : Pool} {zone : Zone} {shares : List Share} {events : List Event}

private theorem servers_of_shares
    (sameWork : shares.map Share.operation = pool.nameservers.map (.verify zone))
    (verified : ∀ share ∈ shares, ∃ server status serial reply rest,
      Verified zone server status serial reply rest share)
    (permuted : events.Perm (shares.flatMap Share.events)) :
    ((events.filterMap (rowOf zone.key)).map Prod.fst).Perm pool.nameservers := by
  have gathered : ((shares.flatMap Share.events).filterMap (rowOf zone.key)).map Prod.fst =
      pool.nameservers := by
    rw [List.filterMap_flatMap, List.map_flatMap]
    calc shares.flatMap (fun share => (share.events.filterMap (rowOf zone.key)).map Prod.fst)
        = shares.flatMap fun share => verifying share.operation := by
          apply List.flatMap_congr
          intro share member
          obtain ⟨_, _, _, _, _, one⟩ := verified share member
          exact one.servers
      _ = (shares.map Share.operation).flatMap verifying := by
          rw [List.flatMap_map]
      _ = pool.nameservers := by
          rw [sameWork, List.flatMap_map]
          exact List.flatMap_singleton' _
  rw [← gathered]
  exact (permuted.filterMap _).map _

private theorem arrived_of_shares
    (distinct : (shares.map Share.operation).Nodup)
    (verified : ∀ share ∈ shares, ∃ server status serial reply rest,
      Verified zone server status serial reply rest share)
    (permuted : events.Perm (shares.flatMap Share.events)) {share : Share} (member : share ∈ shares)
    {server : Nameserver} (mine : share.operation = .verify zone server) :
    events.any (isArrival zone server) = share.events.any (isArrival zone server) := by
  rw [permuted.any_eq, List.any_flatMap, Bool.eq_iff_iff]
  constructor
  · intro arrived
    obtain ⟨other, inShares, answered⟩ := List.any_eq_true.mp arrived
    obtain ⟨_, _, _, _, _, one⟩ := verified other inShares
    have same := one.server_of_arrival answered
    have equal : share = other := by
      apply List.inj_on_of_nodup_map distinct member inShares
      rw [mine, one.operation, same]
    rw [equal]
    exact answered
  · intro answered
    exact List.any_eq_true.mpr ⟨share, member, answered⟩

/-- After the round the rows are those that it wrote, whatever rows of the nameservers there were
before. -/
theorem rows_of_shares (distinct : pool.nameservers.Nodup)
    (sameWork : shares.map Share.operation = pool.nameservers.map (.verify zone))
    (verified : ∀ share ∈ shares, ∃ server status serial reply rest,
      Verified zone server status serial reply rest share)
    (permuted : events.Perm (shares.flatMap Share.events)) {content : List Shown}
    (inside : ∀ shown ∈ content, shown.1 ∈ pool.nameservers) :
    (events.filterMap (rowOf zone.key)).foldr put content =
      (events.filterMap (rowOf zone.key)).reverse := by
  have servers := servers_of_shares sameWork verified permuted
  rw [foldr_put_of_covered fun other member => servers.mem_iff.mpr (inside other member),
    foldr_put_of_distinct (servers.nodup_iff.mpr distinct)]

theorem settled_of_shares (distinct : pool.nameservers.Nodup)
    (sameWork : shares.map Share.operation = pool.nameservers.map (.verify zone))
    (verified : ∀ share ∈ shares, ∃ server status serial reply rest,
      Verified zone server status serial reply rest share)
    (permuted : events.Perm (shares.flatMap Share.events)) {content : List Shown}
    (inside : ∀ shown ∈ content, shown.1 ∈ pool.nameservers) :
    Settled pool zone ((events.filterMap (rowOf zone.key)).foldr put content)
      (fun server => events.any (isArrival zone server)) := by
  have servers := servers_of_shares sameWork verified permuted
  have operations : (shares.map Share.operation).Nodup := by
    rw [sameWork]
    apply distinct.map
    intro left right same
    cases same
    rfl
  rw [rows_of_shares distinct sameWork verified permuted inside]
  constructor
  · rw [List.map_reverse]
    exact (List.reverse_perm _).trans servers
  · intro shown written
    rw [List.mem_reverse] at written
    have gathered := (permuted.filterMap (rowOf zone.key)).mem_iff.mp written
    rw [List.filterMap_flatMap] at gathered
    obtain ⟨share, member, mine⟩ := List.mem_flatMap.mp gathered
    obtain ⟨server, status, serial, reply, rest, one⟩ := verified share member
    rw [one.rows] at mine
    obtain rfl := List.mem_singleton.mp mine
    refine ⟨one.polled.settled, ?_, one.polled.confirms⟩
    rw [arrived_of_shares operations verified permuted member one.operation]
    exact one.arrived_iff

def answeredStatus (pool : Pool) (arrived : Nameserver → Bool) : Status :=
  if pool.required ≤ pool.nameservers.countP arrived then .success else .error

theorem answeredStatus_ne_pending (pool : Pool) (arrived : Nameserver → Bool) :
    answeredStatus pool arrived ≠ .pending := by
  unfold answeredStatus
  split
  · decide
  · decide

def successes (rows : List StatusRecord) : Nat :=
  rows.countP fun row => row.status == .success

/-- The verdict on rows that hold results, by the number of successes and of nameservers that no
row stands for. -/
theorem verdict_of_results {rows : List StatusRecord}
    (inside : ∀ row ∈ rows, row.nameserver ∈ pool.nameservers)
    (settled : ∀ row ∈ rows, row.status ≠ .pending)
    (confirms : ∀ row ∈ rows, row.status = .success →
      Serial.isAtLeast (row.serial.getD zone.serial) zone.serial = true) :
    (pool.verdict zone.serial rows).status =
      if pool.required ≤ successes rows then .success
      else if successes rows + (pool.nameservers.length - rows.length) < pool.required then .error
      else .pending := by
  have counted : rows.filter (fun row => pool.hasNameserver row.nameserver) = rows := by
    rw [List.filter_eq_self]
    intro row member
    exact List.contains_iff_mem.mpr (inside row member)
  have complete : rows.countP Quorum.isSettled = rows.length := by
    rw [List.countP_eq_length]
    intro row member
    exact bne_iff_ne.mpr (settled row member)
  have confirming : rows.countP (Quorum.confirms zone.serial) = successes rows := by
    apply List.countP_congr
    intro row member
    rw [Quorum.confirms, Bool.and_eq_true, beq_iff_eq]
    exact ⟨And.left, fun success => ⟨success, confirms row member success⟩⟩
  unfold Pool.verdict Pool.required
  rw [counted, Quorum.evaluate_status, confirming, complete]

theorem verdict_of_settled {arrived : Nameserver → Bool} {rows : List StatusRecord}
    (settled : Settled pool zone (rows.map shown) arrived) :
    (pool.verdict zone.serial rows).status = answeredStatus pool arrived := by
  have nameservers : (rows.map StatusRecord.nameserver).Perm pool.nameservers := by
    have servers := settled.servers
    rwa [List.map_map] at servers
  have fair : ∀ row ∈ rows, Fair zone arrived (shown row) := fun row member =>
    settled.fair (shown row) (List.mem_map_of_mem member)
  have inside : ∀ row ∈ rows, row.nameserver ∈ pool.nameservers := fun row member =>
    nameservers.mem_iff.mp (List.mem_map_of_mem member)
  have answering : successes rows = pool.nameservers.countP arrived := by
    rw [← nameservers.countP_eq, List.countP_map]
    apply List.countP_congr
    intro row member
    have answered : row.status = .success ↔ arrived row.nameserver = true :=
      (fair row member).arrived
    rw [Function.comp_apply, ← answered, beq_iff_eq]
  have complete : pool.nameservers.length - rows.length = 0 := by
    rw [← nameservers.length_eq, List.length_map, Nat.sub_self]
  rw [verdict_of_results inside (fun row member => (fair row member).settled)
    fun row member => (fair row member).confirms, answering, complete]
  unfold answeredStatus
  by_cases enough : pool.required ≤ pool.nameservers.countP arrived
  · rw [if_pos enough, if_pos enough]
  · rw [if_neg enough, if_neg enough, if_pos (by omega)]

structure Told (zone : Zone) (arrived : Nameserver → Bool) (shown : Shown) : Prop where
  settled : shown.2.1 ≠ .pending
  arrived : shown.2.1 = .success → arrived shown.1 = true
  confirms : shown.2.1 = .success →
    Serial.isAtLeast (shown.2.2.getD zone.serial) zone.serial = true

/-- Every nameserver of the pool has one row, however often it is listed. -/
structure Tallied (pool : Pool) (zone : Zone) (content : List Shown)
    (arrived : Nameserver → Bool) : Prop where
  servers : (content.map Prod.fst).Perm pool.nameservers.dedup
  told : ∀ shown ∈ content, Told zone arrived shown

theorem tallied_of_shares
    (sameWork : shares.map Share.operation = pool.nameservers.map (.verify zone))
    (verified : ∀ share ∈ shares, ∃ server status serial reply rest,
      Verified zone server status serial reply rest share)
    (permuted : events.Perm (shares.flatMap Share.events)) {content : List Shown}
    (inside : ∀ shown ∈ content, shown.1 ∈ pool.nameservers) :
    Tallied pool zone ((events.filterMap (rowOf zone.key)).foldr put content)
      (fun server => events.any (isArrival zone server)) := by
  have servers := servers_of_shares sameWork verified permuted
  rw [foldr_put_of_covered fun other member => servers.mem_iff.mpr (inside other member)]
  constructor
  · rw [List.perm_ext_iff_of_nodup (nodup_foldr_put _) (List.nodup_dedup _)]
    intro server
    rw [servers_foldr_put, servers.mem_iff, List.mem_dedup]
  · intro shown member
    have gathered := (permuted.filterMap (rowOf zone.key)).mem_iff.mp (mem_foldr_put member)
    rw [List.filterMap_flatMap] at gathered
    obtain ⟨share, inShares, mine⟩ := List.mem_flatMap.mp gathered
    obtain ⟨server, status, serial, reply, rest, one⟩ := verified share inShares
    rw [one.rows] at mine
    obtain rfl := List.mem_singleton.mp mine
    refine ⟨one.polled.settled, ?_, one.polled.confirms⟩
    intro success
    rw [permuted.any_eq, List.any_flatMap, List.any_eq_true]
    exact ⟨share, inShares, one.arrived_iff.mp success⟩

end Round

end ZonePropagation.Propagation
