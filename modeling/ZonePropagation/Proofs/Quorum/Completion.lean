import Mathlib.Data.Finset.Card
import Mathlib.Data.Fintype.EquivFin
import Mathlib.Data.List.Nodup
import ZonePropagation.Proofs.Quorum.Counting
/-!
Early verdicts are exact.  A verdict over the rows that are there says what the verdict will be
whatever the outstanding nameservers answer: it is a success when every completion of the rows is
one, an error when every completion is one, and pending while both remain possible.
-/

namespace ZonePropagation.Quorum

structure Hosts (servers : List Nameserver) (total : Nat) (rows : List StatusRecord) : Prop where
  distinct : servers.Nodup
  size : servers.length = total
  within : ∀ row ∈ rows, row.nameserver ∈ servers

/-- Results of all the servers.  Settled rows stay, and every server whose row is pending or
missing has any settled row. -/
structure IsCompletion (servers : List Nameserver) (rows full : List StatusRecord) : Prop where
  once : (full.map StatusRecord.nameserver).Perm servers
  complete : ∀ row ∈ full, isSettled row = true
  kept : ∀ row ∈ rows, isSettled row = true → row ∈ full

private theorem nameserver_infinite : Infinite Nameserver := by
  refine Infinite.of_injective
    (fun size : Nat => Nameserver.mk (String.ofList (List.replicate size 'a')) 53) ?_
  intro left right same
  have hosts := String.ofList_injective (congrArg Nameserver.host same)
  simpa using congrArg List.length hosts

theorem exists_hosts {rows : List StatusRecord} {total : Nat}
    (once : (rows.map StatusRecord.nameserver).Nodup) (few : rows.length ≤ total) :
    ∃ servers, Hosts servers total rows := by
  have unbounded := nameserver_infinite
  let present := (rows.map StatusRecord.nameserver).toFinset
  have small : present.card ≤ total := by
    rw [List.toFinset_card_of_nodup once, List.length_map]
    exact few
  obtain ⟨servers, covers, size⟩ := Infinite.exists_superset_card_eq present total small
  refine ⟨servers.toList, servers.nodup_toList, ?_, ?_⟩
  · rw [Finset.length_toList, size]
  · intro row member
    rw [Finset.mem_toList]
    exact covers (List.mem_toFinset.mpr (List.mem_map_of_mem member))

variable {servers : List Nameserver} {total threshold : Nat} {expected : UInt32}
  {rows full : List StatusRecord}

namespace IsCompletion

theorem countP_settled (completion : IsCompletion servers rows full)
    (hosts : Hosts servers total rows) : full.countP isSettled = total := by
  rw [List.countP_eq_length.mpr completion.complete, ← hosts.size, ← completion.once.length_eq,
    List.length_map]

theorem countP_le (completion : IsCompletion servers rows full)
    (once : (rows.map StatusRecord.nameserver).Nodup) (test : StatusRecord → Bool)
    (onlySettled : ∀ row, test row = true → isSettled row = true) :
    rows.countP test ≤ full.countP test := by
  have distinct : (rows.filter isSettled).Nodup := once.of_map.filter isSettled
  have included : rows.filter isSettled ⊆ full := by
    intro row member
    obtain ⟨present, settledRow⟩ := List.mem_filter.mp member
    exact completion.kept row present settledRow
  calc rows.countP test
      ≤ rows.countP fun row => test row && isSettled row :=
        List.countP_mono_left fun row _member holds => by
          rw [holds, onlySettled row holds]
          rfl
    _ = (rows.filter isSettled).countP test := List.countP_filter.symm
    _ ≤ full.countP test := (List.subperm_of_subset distinct included).countP_le test

/-- The confirmations of a completion lie between those that are there and those that are there
together with one for every outstanding server. -/
theorem confirming_bounds (completion : IsCompletion servers rows full)
    (hosts : Hosts servers total rows) (once : (rows.map StatusRecord.nameserver).Nodup)
    (expected : UInt32) :
    rows.countP (confirms expected) ≤ full.countP (confirms expected) ∧
      full.countP (confirms expected) ≤
        rows.countP (confirms expected) + (total - rows.countP isSettled) := by
  have lower := completion.countP_le once (confirms expected)
    fun _row confirming => isSettled_of_confirms confirming
  have failed := completion.countP_le once (fun row => isSettled row && !confirms expected row)
    fun _row holds => (Bool.and_eq_true_iff.mp holds).1
  have accounted := settled_eq_confirming_add_failed expected full
  have accountedBefore := settled_eq_confirming_add_failed expected rows
  rw [completion.countP_settled hosts] at accounted
  omega

theorem status (completion : IsCompletion servers rows full) (hosts : Hosts servers total rows)
    (threshold : Nat) (expected : UInt32) :
    (evaluate full total threshold expected).status =
      if requiredSuccesses total threshold ≤ full.countP (confirms expected) then .success
      else .error :=
  evaluate_of_settled (Nat.le_of_eq (completion.countP_settled hosts).symm) threshold expected

end IsCompletion

def outstanding (servers : List Nameserver) (rows : List StatusRecord) : List Nameserver :=
  servers.filter fun server => !((rows.filter isSettled).map StatusRecord.nameserver).contains server

def completeWith (answer : Status) (servers : List Nameserver) (rows : List StatusRecord) :
    List StatusRecord :=
  rows.filter isSettled ++ (outstanding servers rows).map fun server =>
    { zoneId := "", action := .update, nameserver := server, status := answer, serial := none
      updatedAt := default }

private theorem servers_completeWith (answer : Status) (hosts : Hosts servers total rows)
    (once : (rows.map StatusRecord.nameserver).Nodup) :
    ((completeWith answer servers rows).map StatusRecord.nameserver).Perm servers := by
  have names : (completeWith answer servers rows).map StatusRecord.nameserver =
      (rows.filter isSettled).map StatusRecord.nameserver ++ outstanding servers rows := by
    simp [completeWith, Function.comp_def]
  have settledOnce : ((rows.filter isSettled).map StatusRecord.nameserver).Nodup :=
    once.sublist (List.filter_sublist.map _)
  rw [names, List.perm_ext_iff_of_nodup _ hosts.distinct]
  · intro server
    rw [List.mem_append]
    constructor
    · rintro (present | missing)
      · obtain ⟨row, member, rfl⟩ := List.mem_map.mp present
        exact hosts.within row (List.mem_of_mem_filter member)
      · exact List.mem_of_mem_filter missing
    · intro member
      by_cases present : server ∈ (rows.filter isSettled).map StatusRecord.nameserver
      · exact Or.inl present
      · exact Or.inr (List.mem_filter.mpr ⟨member, by simpa using present⟩)
  · apply settledOnce.append (hosts.distinct.filter _)
    intro server present missing
    have absent := (List.mem_filter.mp missing).2
    simp only [Bool.not_eq_true', List.contains_eq_mem, decide_eq_false_iff_not] at absent
    exact absent present

theorem completeWith_isCompletion (answer : Status) (known : answer ≠ .pending)
    (hosts : Hosts servers total rows) (once : (rows.map StatusRecord.nameserver).Nodup) :
    IsCompletion servers rows (completeWith answer servers rows) where
  once := servers_completeWith answer hosts once
  complete := by
    intro row member
    rcases List.mem_append.mp member with settledRow | added
    · exact (List.mem_filter.mp settledRow).2
    · obtain ⟨server, _missing, rfl⟩ := List.mem_map.mp added
      simpa [isSettled] using known
  kept := fun _row present settledRow =>
    List.mem_append_left _ (List.mem_filter.mpr ⟨present, settledRow⟩)

theorem outstanding_length (hosts : Hosts servers total rows)
    (once : (rows.map StatusRecord.nameserver).Nodup) :
    (outstanding servers rows).length = total - rows.countP isSettled := by
  have sizes := (servers_completeWith .error hosts once).length_eq
  rw [hosts.size] at sizes
  simp only [completeWith, List.length_map, List.length_append] at sizes
  rw [List.countP_eq_length_filter]
  omega

private theorem countP_filter_settled (expected : UInt32) (rows : List StatusRecord) :
    (rows.filter isSettled).countP (confirms expected) = rows.countP (confirms expected) := by
  rw [List.countP_filter]
  apply List.countP_congr
  intro row _member
  constructor
  · intro both
    exact (Bool.and_eq_true_iff.mp both).1
  · intro confirming
    exact Bool.and_eq_true_iff.mpr ⟨confirming, isSettled_of_confirms confirming⟩

private theorem isAtLeast_self (serial : UInt32) : Serial.isAtLeast serial serial = true := by
  simp [Serial.isAtLeast]

theorem confirming_completeWith_success (hosts : Hosts servers total rows)
    (once : (rows.map StatusRecord.nameserver).Nodup) (expected : UInt32) :
    (completeWith .success servers rows).countP (confirms expected) =
      rows.countP (confirms expected) + (total - rows.countP isSettled) := by
  rw [completeWith, List.countP_append, countP_filter_settled, ← outstanding_length hosts once,
    List.countP_map]
  congr 1
  rw [List.countP_eq_length]
  intro server _missing
  simp [confirms, isAtLeast_self]

theorem confirming_completeWith_error (servers : List Nameserver) (rows : List StatusRecord)
    (expected : UInt32) :
    (completeWith .error servers rows).countP (confirms expected) =
      rows.countP (confirms expected) := by
  rw [completeWith, List.countP_append, countP_filter_settled, List.countP_map]
  simp [confirms, Function.comp_def]

private theorem evaluate_success_iff_completions (hosts : Hosts servers total rows)
    (once : (rows.map StatusRecord.nameserver).Nodup) :
    (evaluate rows total threshold expected).status = .success ↔
      ∀ full, IsCompletion servers rows full →
        (evaluate full total threshold expected).status = .success := by
  rw [evaluate_success_iff]
  constructor
  · intro enough full completion
    rw [evaluate_success_iff]
    exact Nat.le_trans enough (completion.confirming_bounds hosts once expected).1
  · intro always
    have worst := always _ (completeWith_isCompletion .error (by decide) hosts once)
    rwa [evaluate_success_iff, confirming_completeWith_error] at worst

private theorem evaluate_error_iff_completions (hosts : Hosts servers total rows)
    (once : (rows.map StatusRecord.nameserver).Nodup) :
    (evaluate rows total threshold expected).status = .error ↔
      ∀ full, IsCompletion servers rows full →
        (evaluate full total threshold expected).status = .error := by
  rw [evaluate_error_iff]
  constructor
  · intro unreachable full completion
    rw [completion.status hosts, if_neg]
    have upper := (completion.confirming_bounds hosts once expected).2
    omega
  · intro always
    have completion := completeWith_isCompletion .success (by decide) hosts once
    have best := always _ completion
    rw [completion.status hosts, confirming_completeWith_success hosts once] at best
    by_contra reachable
    rw [if_pos (by omega)] at best
    cases best

private theorem evaluate_pending_iff_completions (hosts : Hosts servers total rows)
    (once : (rows.map StatusRecord.nameserver).Nodup) :
    (evaluate rows total threshold expected).status = .pending ↔
      (∃ full, IsCompletion servers rows full ∧
        (evaluate full total threshold expected).status = .success) ∧
      ∃ full, IsCompletion servers rows full ∧
        (evaluate full total threshold expected).status = .error := by
  constructor
  · intro undecided
    have best := completeWith_isCompletion .success (by decide) hosts once
    have worst := completeWith_isCompletion .error (by decide) hosts once
    have open_ := (evaluate_pending_iff ..).mp undecided
    refine ⟨⟨_, best, ?_⟩, ⟨_, worst, ?_⟩⟩
    · rw [best.status hosts, confirming_completeWith_success hosts once, if_pos (by omega)]
    · rw [worst.status hosts, confirming_completeWith_error, if_neg (by omega)]
  · rintro ⟨⟨best, bestCompletes, success⟩, ⟨worst, worstCompletes, error⟩⟩
    have upper := (bestCompletes.confirming_bounds hosts once expected).2
    have lower := (worstCompletes.confirming_bounds hosts once expected).1
    rw [evaluate_success_iff] at success
    rw [evaluate_error_iff] at error
    rw [evaluate_pending_iff]
    omega

/-- The second place the verdict reads from and the two places it subtracts are in range: no
confirmation is unsettled, no more rows are settled than there are servers, and the serial of a
success is one of those sorted. -/
theorem evaluate_in_range (expected : UInt32) (threshold : Nat) (few : rows.length ≤ total) :
    (confirmed expected rows).length ≤ settled rows ∧ settled rows ≤ total ∧
      (0 < requiredSuccesses total threshold →
        requiredSuccesses total threshold ≤ (confirmed expected rows).length →
        requiredSuccesses total threshold - 1 <
          (Serial.newestFirst expected (confirmed expected rows)).length) := by
  refine ⟨?_, Nat.le_trans List.countP_le_length few, ?_⟩
  · rw [confirmed_length]
    exact confirming_le_settled expected rows
  · intro positive enough
    rw [Serial.newestFirst, List.length_mergeSort]
    omega

/-- The verdict over rows is exactly what all their completions have in common, whichever pool of
that size the rows are of.  A completion is decided by the least number of confirmations that
reaches the threshold.  Nothing that the verdict subtracts or reads is out of range. -/
theorem evaluate_exact_over_completions (rows : List StatusRecord) (total threshold : Nat)
    (expected : UInt32) (once : (rows.map StatusRecord.nameserver).Nodup)
    (few : rows.length ≤ total) :
    (∃ servers, Hosts servers total rows) ∧
      (∀ servers, Hosts servers total rows →
        ((evaluate rows total threshold expected).status = .success ↔
          ∀ full, IsCompletion servers rows full →
            (evaluate full total threshold expected).status = .success) ∧
        ((evaluate rows total threshold expected).status = .error ↔
          ∀ full, IsCompletion servers rows full →
            (evaluate full total threshold expected).status = .error) ∧
        ((evaluate rows total threshold expected).status = .pending ↔
          (∃ full, IsCompletion servers rows full ∧
            (evaluate full total threshold expected).status = .success) ∧
          ∃ full, IsCompletion servers rows full ∧
            (evaluate full total threshold expected).status = .error) ∧
        ∀ full, IsCompletion servers rows full →
          (evaluate full total threshold expected).status ≠ .pending ∧
          ∃ least, IsLeast {count | total * threshold ≤ 100 * count} least ∧
            ((evaluate full total threshold expected).status = .success ↔
              least ≤ full.countP (confirms expected))) ∧
      (confirmed expected rows).length ≤ settled rows ∧ settled rows ≤ total ∧
      (0 < requiredSuccesses total threshold →
        requiredSuccesses total threshold ≤ (confirmed expected rows).length →
        requiredSuccesses total threshold - 1 <
          (Serial.newestFirst expected (confirmed expected rows)).length) := by
  refine ⟨exists_hosts once few, ?_, evaluate_in_range expected threshold few⟩
  intro servers hosts
  refine ⟨evaluate_success_iff_completions hosts once, evaluate_error_iff_completions hosts once,
    evaluate_pending_iff_completions hosts once, ?_⟩
  intro full completion
  constructor
  · rw [completion.status hosts]
    split <;> decide
  · exact ⟨_, requiredSuccesses_isLeast total threshold, evaluate_success_iff ..⟩

private def rowOf (host : String) (status : Status) (serial : Option UInt32) : StatusRecord :=
  { zoneId := "z", action := .update, nameserver := ⟨host, 53⟩, status, serial
    updatedAt := default }

theorem evaluate_exact_over_completions_three :
    let rows := [rowOf "a" .success (some 12), rowOf "b" .pending none]
    let servers := [⟨"a", 53⟩, ⟨"b", 53⟩, ⟨"c", 53⟩]
    (rows.map StatusRecord.nameserver).Nodup ∧ rows.length ≤ 3 ∧
      (∃ full, IsCompletion servers rows full ∧ (evaluate full 3 66 10).status = .success) ∧
      ∃ full, IsCompletion servers rows full ∧ (evaluate full 3 66 10).status = .error := by
  intro rows servers
  have once : (rows.map StatusRecord.nameserver).Nodup := by decide
  have few : rows.length ≤ 3 := by decide
  have hosts : Hosts servers 3 rows := ⟨by decide, rfl, by decide⟩
  have exact_ := (evaluate_exact_over_completions rows 3 66 10 once few).2.1 servers hosts
  exact ⟨once, few, exact_.2.2.1.mp (by decide)⟩

end ZonePropagation.Quorum
