import ZonePropagation.Proofs.Propagation.Steps
import ZonePropagation.Proofs.Quorum.Serials
/-!
Results that arrive one by one, in any order.

While results come in, the rows show those that have arrived, and the other nameservers as pending.
The first verdict that is final has the status of the verdict on all results, whatever the order is.
It is reported, and all later results are ignored.
-/

namespace ZonePropagation.Propagation

open Interleaving Status.Memory

abbrev Findings := Nameserver → Status × Option UInt32

/-- What rows show when some nameservers' results have arrived and others are awaited. -/
def incoming (findings : Findings) (arrived awaited : List Nameserver) : List Shown :=
  arrived.map (fun server => (server, findings server)) ++
    awaited.map fun server => (server, .pending, none)

def confirmedBy (expected : UInt32) (shown : Shown) : Bool :=
  shown.2.1 == .success && Serial.isAtLeast (shown.2.2.getD expected) expected

section Counts

variable {findings : Findings} {arrived awaited : List Nameserver} {expected : UInt32}

theorem put_incoming {server : Nameserver} {content : List Shown}
    (distinct : (arrived ++ server :: awaited).Nodup)
    (shows : content.Perm (incoming findings arrived (server :: awaited))) :
    (put (server, findings server) content).Perm
      (incoming findings (arrived ++ [server]) awaited) := by
  have elsewhere : ∀ other ∈ arrived ++ awaited, other ≠ server := by
    rintro other member rfl
    have apart := List.nodup_middle.mp distinct
    exact (List.nodup_cons.mp apart).1 member
  have left : (incoming findings arrived (server :: awaited)).filter
      (fun other => other.1 != server) = incoming findings arrived awaited := by
    unfold incoming
    rw [List.filter_append, List.map_cons, List.filter_cons_of_neg (by simp)]
    congr 1
    · rw [List.filter_eq_self]
      intro other member
      obtain ⟨name, inside, rfl⟩ := List.mem_map.mp member
      exact bne_iff_ne.mpr (elsewhere name (List.mem_append_left _ inside))
    · rw [List.filter_eq_self]
      intro other member
      obtain ⟨name, inside, rfl⟩ := List.mem_map.mp member
      exact bne_iff_ne.mpr (elsewhere name (List.mem_append_right _ inside))
  have rest := shows.filter fun other => other.1 != server
  rw [left] at rest
  unfold put
  apply (rest.append_right [(server, findings server)]).trans
  unfold incoming
  rw [List.map_append, List.append_assoc, List.append_assoc]
  exact List.perm_append_comm.append_left _

theorem countP_incoming {counts : Shown → Bool}
    (pending : ∀ server, counts (server, .pending, none) = false) :
    (incoming findings arrived awaited).countP counts =
      arrived.countP fun server => counts (server, findings server) := by
  have none : (awaited.map fun server => ((server, .pending, none) : Shown)).countP counts = 0 := by
    rw [List.countP_eq_zero]
    intro shown member
    obtain ⟨server, -, rfl⟩ := List.mem_map.mp member
    rw [pending]
    exact Bool.false_ne_true
  unfold incoming
  rw [List.countP_append, none, List.countP_map, Nat.add_zero]
  rfl

theorem countP_settled_incoming (settled : ∀ server ∈ arrived, (findings server).1 ≠ .pending) :
    ((incoming findings arrived awaited).countP fun shown => shown.2.1 != .pending) =
      arrived.length := by
  rw [countP_incoming fun _ => rfl, List.countP_eq_length]
  intro server member
  simpa using settled server member

end Counts

section Verdicts

variable {pool : Pool} {findings : Findings} {arrived awaited : List Nameserver}
  {expected : UInt32} {rows full : List StatusRecord}

def confirmations (findings : Findings) (expected : UInt32) (arrived : List Nameserver) : Nat :=
  arrived.countP fun server => confirmedBy expected (server, findings server)

def Undecided (pool : Pool) (findings : Findings) (expected : UInt32)
    (arrived awaited : List Nameserver) : Prop :=
  confirmations findings expected arrived < pool.required ∧
    pool.required ≤ confirmations findings expected arrived + awaited.length

private theorem filter_hasNameserver (members : (arrived ++ awaited).Perm pool.nameservers)
    (shows : (rows.map shown).Perm (incoming findings arrived awaited)) :
    rows.filter (fun row => pool.hasNameserver row.nameserver) = rows := by
  rw [List.filter_eq_self]
  intro row member
  have inside : row.nameserver ∈ (incoming findings arrived awaited).map Prod.fst :=
    List.mem_map_of_mem (f := Prod.fst) (shows.mem_iff.mp (List.mem_map_of_mem member))
  rw [incoming, List.map_append, List.map_map, List.map_map] at inside
  rw [Pool.hasNameserver, List.contains_iff_mem, ← members.mem_iff]
  simpa [Function.comp_def] using inside

/-- The verdict on results that have arrived depends on their confirmations and on the number of
those awaited. -/
theorem verdict_status_incoming (members : (arrived ++ awaited).Perm pool.nameservers)
    (settled : ∀ server ∈ pool.nameservers, (findings server).1 ≠ .pending)
    (shows : (rows.map shown).Perm (incoming findings arrived awaited)) :
    (pool.verdict expected rows).status =
      if pool.required ≤ confirmations findings expected arrived then .success
      else if confirmations findings expected arrived + awaited.length < pool.required then .error
      else .pending := by
  have confirming : rows.countP (Quorum.confirms expected) =
      confirmations findings expected arrived := by
    have counted := shows.countP_eq (confirmedBy expected)
    rw [countP_incoming fun _ => rfl, List.countP_map] at counted
    exact counted
  have known : rows.countP Quorum.isSettled = arrived.length := by
    have counted := shows.countP_eq fun shown => shown.2.1 != .pending
    rw [countP_settled_incoming, List.countP_map] at counted
    · exact counted
    · intro server member
      exact settled server (members.mem_iff.mp (List.mem_append_left _ member))
  have total : pool.nameservers.length - arrived.length = awaited.length := by
    rw [← members.length_eq, List.length_append, Nat.add_sub_cancel_left]
  unfold Pool.verdict
  rw [filter_hasNameserver members shows, Quorum.evaluate_status, confirming, known, total]
  rfl

theorem pending_iff_undecided (members : (arrived ++ awaited).Perm pool.nameservers)
    (settled : ∀ server ∈ pool.nameservers, (findings server).1 ≠ .pending)
    (shows : (rows.map shown).Perm (incoming findings arrived awaited)) :
    (pool.verdict expected rows).status = .pending ↔
      Undecided pool findings expected arrived awaited := by
  rw [verdict_status_incoming members settled shows]
  unfold Undecided
  split
  · constructor
    · intro impossible
      cases impossible
    · intro undecided
      omega
  · split
    · constructor
      · intro impossible
        cases impossible
      · intro undecided
        omega
    · constructor
      · intro _pending
        omega
      · intro _undecided
        rfl

theorem verdict_status_of_decided (members : (arrived ++ awaited).Perm pool.nameservers)
    (settled : ∀ server ∈ pool.nameservers, (findings server).1 ≠ .pending)
    (shows : (rows.map shown).Perm (incoming findings arrived awaited))
    (decided : ¬ Undecided pool findings expected arrived awaited)
    (complete : (full.map shown).Perm (incoming findings pool.nameservers [])) :
    (pool.verdict expected rows).status = (pool.verdict expected full).status := by
  have all : confirmations findings expected pool.nameservers =
      confirmations findings expected arrived + confirmations findings expected awaited := by
    unfold confirmations
    rw [← members.countP_eq, List.countP_append]
  have few : confirmations findings expected awaited ≤ awaited.length := List.countP_le_length
  rw [verdict_status_incoming members settled shows,
    verdict_status_incoming (by rw [List.append_nil]) settled complete, all, List.length_nil]
  unfold Undecided at decided
  by_cases enough : pool.required ≤ confirmations findings expected arrived
  · rw [if_pos enough, if_pos (by omega)]
  · rw [if_neg enough, if_pos (by omega), if_neg (by omega), if_pos (by omega)]

theorem confirmed_eq (expected : UInt32) (rows : List StatusRecord) :
    Quorum.confirmed expected rows =
      ((rows.map shown).filter (confirmedBy expected)).map fun shown =>
        shown.2.2.getD expected := by
  unfold Quorum.confirmed
  rw [List.filter_map, List.filter_map, List.map_map, List.filter_filter]
  congr 1
  apply List.filter_congr
  intro row _member
  rw [Bool.and_comm]
  rfl

/-- The serial of an early success is the expected one or newer, and no farther from it than that
of the success on all results. -/
theorem distance_le_of_success {early : UInt32}
    (members : (arrived ++ awaited).Perm pool.nameservers)
    (settled : ∀ server ∈ pool.nameservers, (findings server).1 ≠ .pending)
    (shows : (rows.map shown).Perm (incoming findings arrived awaited))
    (complete : (full.map shown).Perm (incoming findings pool.nameservers []))
    (first : pool.verdict expected rows = .success early) :
    Serial.isAtLeast early expected = true ∧
      ∃ late, pool.verdict expected full = .success late ∧
        Serial.distance expected early ≤ Serial.distance expected late := by
  have whole : (pool.nameservers ++ []).Perm pool.nameservers := by rw [List.append_nil]
  have decided : ¬ Undecided pool findings expected arrived awaited := by
    rw [← pending_iff_undecided members settled shows, first]
    intro impossible
    cases impossible
  have same := verdict_status_of_decided members settled shows decided complete
  have contained : (Quorum.confirmed expected rows).Subperm (Quorum.confirmed expected full) := by
    have silent : (incoming findings arrived awaited).filter (confirmedBy expected) =
        (arrived.map fun server => (server, findings server)).filter (confirmedBy expected) := by
      rw [incoming, List.filter_append, List.append_right_eq_self, List.filter_eq_nil_iff]
      intro shown member
      obtain ⟨server, -, rfl⟩ := List.mem_map.mp member
      simp [confirmedBy]
    have more : (incoming findings pool.nameservers []).Perm
        ((arrived ++ awaited).map fun server => (server, findings server)) := by
      rw [incoming, List.map_nil, List.append_nil]
      exact members.symm.map _
    have held := (shows.filter (confirmedBy expected)).map fun shown => shown.2.2.getD expected
    have heldAll := ((complete.trans more).filter (confirmedBy expected)).map fun shown =>
      shown.2.2.getD expected
    rw [← confirmed_eq, silent] at held
    rw [← confirmed_eq, List.map_append, List.filter_append, List.map_append] at heldAll
    exact held.subperm.trans ((List.sublist_append_left _ _).subperm.trans heldAll.symm.subperm)
  unfold Pool.verdict at first same ⊢
  rw [filter_hasNameserver members shows] at first same
  rw [filter_hasNameserver whole complete] at same ⊢
  refine ⟨(Quorum.evaluate_success_serial first).1, ?_⟩
  rw [first] at same
  cases reached : Quorum.evaluate full pool.nameservers.length pool.threshold expected with
  | success late => exact ⟨late, rfl, Quorum.evaluate_success_mono contained first reached⟩
  | error _ | pending _ _ _ =>
      rw [reached] at same
      cases same

end Verdicts

section Decision

variable {pool : Pool} {findings : Findings} {expected : UInt32}

def StaysOpen (pool : Pool) (findings : Findings) (expected : UInt32) :
    (arrived early rest : List Nameserver) → Prop
  | _, [], _ => True
  | arrived, server :: early, rest =>
      Undecided pool findings expected (arrived ++ [server]) (early ++ rest) ∧
        StaysOpen pool findings expected (arrived ++ [server]) early rest

theorem exists_decisive {arrived awaited : List Nameserver} (waiting : awaited ≠ []) :
    ∃ early decisive late, awaited = early ++ decisive :: late ∧
      StaysOpen pool findings expected arrived early (decisive :: late) ∧
        ¬ Undecided pool findings expected (arrived ++ early ++ [decisive]) late := by
  induction awaited generalizing arrived with
  | nil => exact absurd rfl waiting
  | cons server awaited ih =>
      by_cases undecided : Undecided pool findings expected (arrived ++ [server]) awaited
      · -- With nobody awaited the verdict would be final.
        have more : awaited ≠ [] := by
          rintro rfl
          obtain ⟨few, enough⟩ := undecided
          rw [List.length_nil, Nat.add_zero] at enough
          omega
        obtain ⟨early, decisive, late, rfl, stays, decided⟩ := @ih (arrived ++ [server]) more
        refine ⟨server :: early, decisive, late, rfl, ⟨undecided, stays⟩, ?_⟩
        rw [List.append_assoc arrived, List.singleton_append] at decided
        exact decided
      · refine ⟨[], server, awaited, rfl, trivial, ?_⟩
        rw [List.append_nil]
        exact undecided

end Decision

section Recording

variable {manager : Manager} {pool : Pool} {zone : Zone} {origin : Status.Memory}
  {account : Account} {now : Situation} {server : Nameserver} {status : Status}
  {serial : Option UInt32}

/-- What a result makes of an account: nothing without rows, and otherwise a row and a verdict on
the rows then, which is reported once it is final. -/
inductive Recorded (pool : Pool) (zone : Zone) (account : Account) (written : Shown) :
    Option Verdict → Account → Prop
  | ignored (empty : account.content = []) : Recorded pool zone account written none account
  | counted {rows : List StatusRecord} (present : account.content ≠ [])
      (shows : rows.map shown = put written account.content)
      (unreported : (pool.verdict zone.serial rows).report? = none) :
      Recorded pool zone account written (some (pool.verdict zone.serial rows))
        { account with content := put written account.content }
  | concluded {rows : List StatusRecord} {status : Status} {serial : UInt32} {moment : Timestamp}
      (present : account.content ≠ []) (shows : rows.map shown = put written account.content)
      (reported : (pool.verdict zone.serial rows).report? = some (status, serial)) :
      Recorded pool zone account written (some (pool.verdict zone.serial rows))
        { account.reported zone status serial moment with content := [] }

private theorem Recorded.freed {written : Shown} {answer : Option Verdict} {after : Account}
    {action : ZoneAction} {held : List Nat} (free : account.held = [])
    (recorded : Recorded pool { zone with action } { account with held } written answer after) :
    Recorded pool zone account written answer { after with held := [] } := by
  rw [← free]
  cases recorded with
  | ignored empty => exact .ignored empty
  | counted present shows unreported => exact .counted present shows unreported
  | concluded present shows reported => exact .concluded present shows reported

private theorem recordLocked_keeps {policy : VerificationPolicy}
    (holds : account.Holds zone origin now)
    (accepting : account.content ≠ [] → Accepting account.registry zone) :
    Succeeds manager (fun later answer => ∃ after,
        Recorded pool zone account (server, status, serial) answer after ∧
          Account.Holds zone origin { after with held := account.held } later)
      (do
        if (← readRows zone.key).isEmpty then return none
        storeRow zone.key server status serial
        return some (← decide policy pool zone)) now := by
  apply Succeeds.bind (readRows_succeeds holds)
  rintro read rows ⟨-, shows, kept⟩
  by_cases empty : rows = []
  · rw [empty, List.isEmpty_nil, if_pos rfl]
    rw [empty, List.map_nil] at shows
    exact .pure ⟨account, .ignored shows.symm, kept⟩
  · have present : account.content ≠ [] := by
      rw [← shows]
      simpa using empty
    rw [List.isEmpty_eq_false_iff.mpr empty, if_neg Bool.false_ne_true]
    apply Succeeds.bind (storeRow_succeeds kept server status serial)
    intro stored _ wrote
    apply Succeeds.bind (decide_keeps wrote (accepting present))
    rintro last verdict ⟨rows, -, shows, rfl, unreported, reported⟩
    apply Succeeds.pure
    cases report : (pool.verdict zone.serial rows).report? with
    | none => exact ⟨_, .counted present shows report, unreported report⟩
    | some result =>
        obtain ⟨status, serial⟩ := result
        obtain ⟨moment, concluded⟩ := reported status serial report
        exact ⟨_, .concluded present shows report, concluded⟩

theorem record_succeeds (known : manager.topology.get? zone.poolId = some pool)
    (member : server ∈ pool.nameservers)
    (holds : account.Holds { zone with action := zone.action.effective } origin now)
    (accepting : account.content ≠ [] → Accepting account.registry zone)
    (free : account.held = []) :
    Succeeds manager (fun later answer => ∃ after, after.held = [] ∧
        Recorded pool zone account (server, status, serial) answer after ∧
        after.Holds { zone with action := zone.action.effective } origin later)
      (manager.record zone server status serial) now := by
  have counts : pool.hasNameserver server = true := List.contains_iff_mem.mpr member
  unfold Manager.record
  apply Succeeds.bind (pool_succeeds known)
  rintro now found ⟨rfl, rfl⟩
  dsimp only
  rw [counts, Bool.not_true, if_neg Bool.false_ne_true]
  apply Conduct.Along.weaken (locked_keeps (fun outcome after => ∃ answer,
    outcome = .ok answer ∧ Recorded pool zone account (server, status, serial) answer
      { after with held := [] }) holds free ?_)
  · rintro later outcome ⟨after, ⟨answer, rfl, recorded⟩, kept⟩
    exact ⟨{ after with held := [] }, rfl, recorded, kept⟩
  · intro lock later held
    apply Conduct.Along.weaken (recordLocked_keeps held accepting)
    rintro last (fault | answer) met
    · cases met
    · obtain ⟨after, recorded, kept⟩ := met
      exact ⟨after, ⟨answer, rfl, recorded.freed free⟩, kept⟩

end Recording

def recording (zone : Zone) (findings : Findings) (server : Nameserver) : Operation :=
  .record zone server (findings server).1 (findings server).2

section Order

variable {manager : Manager} {pool : Pool} {zone : Zone} {origin : Status.Memory}
  {account : Account} {now : Situation} {findings : Findings}

theorem recording_settles (findings : Findings) {server : Nameserver}
    (known : manager.topology.get? zone.poolId = some pool) (member : server ∈ pool.nameservers)
    (holds : account.Holds { zone with action := zone.action.effective } origin now)
    (accepting : account.content ≠ [] → Accepting account.registry zone)
    (free : account.held = []) :
    Strand.Settles manager unexpired (fun later result => ∃ answer after,
        result = .recorded (.ok answer) ∧ after.held = [] ∧
          Recorded pool zone account (server, findings server) answer after ∧
          after.Holds { zone with action := zone.action.effective } origin later)
      now (.start manager (recording zone findings server)) := by
  apply Strand.Settles.of_along
  apply Conduct.Along.bind (record_succeeds known member holds accepting free)
  rintro later (fault | answer) met
  · cases met
  · obtain ⟨after, unlocked, recorded, kept⟩ := met
    exact .pure fun last unmoved => unmoved ▸ ⟨answer, after, rfl, unlocked, recorded, kept⟩

theorem late_in_turn {late : List Nameserver}
    (known : manager.topology.get? zone.poolId = some pool)
    (inside : ∀ server ∈ late, server ∈ pool.nameservers)
    (holds : account.Holds { zone with action := zone.action.effective } origin now)
    (empty : account.content = []) (free : account.held = []) :
    InTurn manager unexpired (late.map (recording zone findings)) (fun final answers =>
        (∀ answer ∈ answers, answer = .recorded (.ok none)) ∧
          account.Holds { zone with action := zone.action.effective } origin final) now := by
  induction late generalizing now with
  | nil => exact ⟨by simp, holds⟩
  | cons server late ih =>
      have first := recording_settles findings known (inside server (by simp)) holds
        (fun present => absurd empty present) free
      apply first.weaken
      rintro later result ⟨answer, after, rfl, -, recorded, kept⟩
      cases recorded with
      | ignored _ =>
          apply (ih (fun other member => inside other (by simp [member])) kept).weaken
          rintro final answers ⟨ignored, held⟩
          exact ⟨by simpa using ignored, held⟩
      | counted present _ _ | concluded present _ _ => exact absurd empty present

section Counted

variable {arrived awaited : List Nameserver} {server : Nameserver} {answer : Option Verdict}
  {after : Account}

private theorem content_ne_nil
    (shows : account.content.Perm (incoming findings arrived (server :: awaited))) :
    account.content ≠ [] := by
  intro empty
  rw [empty] at shows
  have nothing := shows.nil_eq.symm
  simp [incoming] at nothing

theorem Recorded.of_undecided (members : (arrived ++ server :: awaited).Perm pool.nameservers)
    (distinct : pool.nameservers.Nodup)
    (settled : ∀ server ∈ pool.nameservers, (findings server).1 ≠ .pending)
    (shows : account.content.Perm (incoming findings arrived (server :: awaited)))
    (undecided : Undecided pool findings zone.serial (arrived ++ [server]) awaited)
    (recorded : Recorded pool zone account (server, findings server) answer after) :
    (∃ verdict, answer = some verdict ∧ verdict.report? = none) ∧ ∃ content,
      content.Perm (incoming findings (arrived ++ [server]) awaited) ∧
        after = { account with content } := by
  have moved : (arrived ++ [server] ++ awaited).Perm pool.nameservers := by
    rwa [List.append_assoc]
  have counted := put_incoming (members.nodup_iff.mpr distinct) shows
  cases recorded with
  | ignored empty => exact absurd empty (content_ne_nil shows)
  | counted _ written unreported => exact ⟨⟨_, rfl, unreported⟩, _, counted, rfl⟩
  | @concluded rows _ _ _ _ written reported =>
      rw [← written] at counted
      have pending := (pending_iff_undecided moved settled counted).mpr undecided
      rw [Verdict.report_eq_none_iff.mpr pending] at reported
      cases reported

theorem Recorded.of_decided (members : (arrived ++ server :: awaited).Perm pool.nameservers)
    (distinct : pool.nameservers.Nodup)
    (settled : ∀ server ∈ pool.nameservers, (findings server).1 ≠ .pending)
    (shows : account.content.Perm (incoming findings arrived (server :: awaited)))
    (decided : ¬ Undecided pool findings zone.serial (arrived ++ [server]) awaited)
    (recorded : Recorded pool zone account (server, findings server) answer after) :
    ∃ (rows : List StatusRecord) (serial : UInt32) (moment : Timestamp),
      (rows.map shown).Perm (incoming findings (arrived ++ [server]) awaited) ∧
        answer = some (pool.verdict zone.serial rows) ∧
        (pool.verdict zone.serial rows).report? =
          some ((pool.verdict zone.serial rows).status, serial) ∧
        after = { account.reported zone (pool.verdict zone.serial rows).status serial moment with
          content := [] } := by
  have moved : (arrived ++ [server] ++ awaited).Perm pool.nameservers := by
    rwa [List.append_assoc]
  have counted := put_incoming (members.nodup_iff.mpr distinct) shows
  cases recorded with
  | ignored empty => exact absurd empty (content_ne_nil shows)
  | counted _ written unreported =>
      rw [← written] at counted
      have pending := Verdict.report_eq_none_iff.mp unreported
      exact absurd ((pending_iff_undecided moved settled counted).mp pending) decided
  | @concluded rows status serial moment _ written reported =>
      rw [← written] at counted
      have same := Verdict.status_of_report reported
      subst same
      exact ⟨rows, serial, moment, counted, rfl, reported, rfl⟩

end Counted

theorem early_in_turn {arrived early rest : List Nameserver}
    (known : manager.topology.get? zone.poolId = some pool) (distinct : pool.nameservers.Nodup)
    (settled : ∀ server ∈ pool.nameservers, (findings server).1 ≠ .pending)
    (members : (arrived ++ (early ++ rest)).Perm pool.nameservers)
    (shows : account.content.Perm (incoming findings arrived (early ++ rest)))
    (stays : StaysOpen pool findings zone.serial arrived early rest)
    (holds : account.Holds { zone with action := zone.action.effective } origin now)
    (accepting : Accepting account.registry zone) (free : account.held = []) :
    InTurn manager unexpired (early.map (recording zone findings)) (fun later answers =>
        (∀ answer ∈ answers, ∃ verdict,
          answer = .recorded (.ok (some verdict)) ∧ verdict.report? = none) ∧
        ∃ content, content.Perm (incoming findings (arrived ++ early) rest) ∧
          Account.Holds { zone with action := zone.action.effective } origin
            { account with content } later) now := by
  -- Each result leaves an account from which the others start, with one more arrived.
  induction early generalizing arrived account now with
  | nil =>
      rw [List.nil_append] at shows
      refine ⟨by simp, account.content, ?_, holds⟩
      rwa [List.append_nil]
  | cons server early ih =>
      obtain ⟨undecided, stays⟩ := stays
      have inside : server ∈ pool.nameservers := members.mem_iff.mp (by simp)
      have moved : (arrived ++ [server] ++ (early ++ rest)).Perm pool.nameservers := by
        rw [List.append_assoc]
        exact members
      apply (recording_settles _ known inside holds (fun _ => accepting) free).weaken
      rintro later result ⟨answer, after, rfl, unlocked, recorded, kept⟩
      obtain ⟨⟨verdict, rfl, unreported⟩, content, counted, rfl⟩ :=
        recorded.of_undecided members distinct settled shows undecided
      apply (ih moved counted stays kept accepting unlocked).weaken
      rintro final answers ⟨answered, content, told, held⟩
      refine ⟨?_, content, ?_, held⟩
      · rintro other member
        rcases List.mem_cons.mp member with rfl | inRest
        · exact ⟨verdict, rfl, unreported⟩
        · exact answered other inRest
      · rwa [List.append_assoc] at told

end Order

def deliveries (now : Situation) : List Event :=
  now.past.filter fun event => delivers event.effect

/-- The verdict that was reached early is reported once, and no rows of the zone's action are left.
It has the status of the verdict on all results, and a success is at least as near to the expected
serial. -/
structure Concluding (pool : Pool) (zone : Zone) (initial : Surroundings) (rows : Status.Memory)
    (full : List StatusRecord) (verdict : Verdict) (now : Situation) : Prop where
  status : verdict.status = (pool.verdict zone.serial full).status
  serial : ∀ early, verdict = .success early → Serial.isAtLeast early zone.serial = true ∧
    ∃ late, pool.verdict zone.serial full = .success late ∧
      Serial.distance zone.serial early ≤ Serial.distance zone.serial late
  reported : ∃ serial moment, verdict.report? = some (verdict.status, serial) ∧
    deliveries now = [⟨.deliver ⟨zone.id, verdict.status, serial⟩, .ok ()⟩] ∧
    now.surroundings.registry =
      (initial.registry.deliver ⟨zone.id, verdict.status, serial⟩ moment).2
  cleared : now.surroundings.status = .memory (rows.clear zone.id zone.action.effective)

/-- In whatever order the results of all nameservers are recorded, one of them concludes the
attempt, with the status that the verdict on all of them has.  Those before it are only counted,
and those after it are ignored. -/
theorem results_conclude_in_any_order {manager : Manager} {pool : Pool} {zone : Zone}
    {initial : Surroundings} {rows : Status.Memory} {findings : Findings}
    {full : List StatusRecord} {order : List Nameserver}
    (known : manager.topology.get? zone.poolId = some pool) (distinct : pool.nameservers.Nodup)
    (present : pool.nameservers ≠ [])
    (settled : ∀ server ∈ pool.nameservers, (findings server).1 ≠ .pending)
    (complete : (full.map shown).Perm (incoming findings pool.nameservers []))
    (members : order.Perm pool.nameservers) (kept : initial.status = .memory rows)
    (pending : (rows.content ⟨zone.id, zone.action.effective⟩).Perm
      (incoming findings [] pool.nameservers))
    (accepting : Accepting initial.registry zone) (free : initial.locks.held = []) :
    ∃ early decisive late, order = early ++ decisive :: late ∧
      InTurn manager unexpired (early.map (recording zone findings)) (fun opened answers =>
        (∀ answer ∈ answers, ∃ verdict,
          answer = .recorded (.ok (some verdict)) ∧ verdict.report? = none) ∧
        deliveries opened = [] ∧
        InTurn manager unexpired [recording zone findings decisive] (fun concluded answers =>
          (∃ verdict, answers = [.recorded (.ok (some verdict))] ∧
            Concluding pool zone initial rows full verdict concluded) ∧
          InTurn manager unexpired (late.map (recording zone findings)) (fun final answers =>
            (∀ answer ∈ answers, answer = .recorded (.ok none)) ∧
            deliveries final = deliveries concluded ∧
            final.surroundings.status = concluded.surroundings.status ∧
            final.surroundings.registry = concluded.surroundings.registry) concluded) opened)
        ⟨initial, []⟩ := by
  have opening : (Account.opening { zone with action := zone.action.effective } initial rows).Holds
      { zone with action := zone.action.effective } rows ⟨initial, []⟩ := .opening kept free
  have awaited : order ≠ [] := by
    rintro rfl
    exact present members.nil_eq.symm
  obtain ⟨early, decisive, late, rfl, stays, decided⟩ :=
    @exists_decisive pool findings zone.serial [] order awaited
  rw [List.nil_append] at decided
  have inside : decisive ∈ pool.nameservers := members.mem_iff.mp (by simp)
  have shows : (rows.content ⟨zone.id, zone.action.effective⟩).Perm
      (incoming findings [] (early ++ decisive :: late)) :=
    pending.trans (members.symm.map _)
  refine ⟨early, decisive, late, rfl, ?_⟩
  apply (early_in_turn known distinct settled members shows stays opening accepting rfl).weaken
  rintro opened answers ⟨undecided, content, counted, held⟩
  refine ⟨undecided, held.reports, ?_⟩
  apply (recording_settles _ known inside held (fun _ => accepting) rfl).weaken
  rintro concluded result ⟨answer, after, rfl, unlocked, recorded, reported⟩
  obtain ⟨decisiveRows, serial, moment, told, rfl, report, rfl⟩ :=
    recorded.of_decided members distinct settled counted decided
  have moved : (early ++ [decisive] ++ late).Perm pool.nameservers := by
    rwa [List.append_assoc]
  have same := verdict_status_of_decided moved settled told decided complete
  refine ⟨⟨_, rfl, same, ?_, ⟨serial, moment, report, ?_, ?_⟩, ?_⟩, ?_⟩
  · intro early success
    exact distance_le_of_success moved settled told complete success
  · exact reported.reports
  · exact reported.registry
  · obtain ⟨memory, stored, nothing⟩ := reported.rows
    rw [stored, nothing.eq_clear]
    rfl
  · have among : ∀ server ∈ late, server ∈ pool.nameservers := fun server member =>
      members.mem_iff.mp (by simp [member])
    apply (late_in_turn known among reported rfl rfl).weaken
    rintro final answers ⟨ignored, still⟩
    refine ⟨ignored, still.reports.trans reported.reports.symm, ?_,
      still.registry.trans reported.registry.symm⟩
    obtain ⟨memory, stored, nothing⟩ := reported.rows
    obtain ⟨last, left, cleared⟩ := still.rows
    rw [stored, left, nothing.eq_clear, cleared.eq_clear]

private def poolOfThree : Pool where
  id := "p"
  name := "p"
  targets := []
  nameservers := [⟨"a", 53⟩, ⟨"b", 53⟩, ⟨"c", 53⟩]
  threshold := 60

private def managerOfThree : Manager where
  topology := { pools := [poolOfThree] }
  policy := { probe := ⟨1000, 100, 3⟩, detached := true }

private def awaitingThree : Zone where
  id := "z"
  name := "z."
  serial := 10
  action := .update
  status := .pending
  poolId := "p"
  updatedAt := ⟨0, 0⟩

private def tellings : Findings := fun server =>
  if server.host = "a" then (.error, some 9)
  else if server.host = "b" then (.success, some 12) else (.success, some 10)

private def rowOfThree (server : Nameserver) (told : Status × Option UInt32) : StatusRecord :=
  ⟨"z", .update, server, told.1, told.2, ⟨0, 0⟩⟩

private def awaitedRows : Status.Memory where
  ttl := 3600000
  entries := poolOfThree.nameservers.map fun server =>
    ⟨rowOfThree server (.pending, none), 3600000⟩

private def beforeResults : Surroundings where
  status := .memory awaitedRows
  registry := .memory { zones := [awaitingThree] }

theorem results_conclude_in_any_order_three :
    ∃ early decisive late,
      [⟨"c", 53⟩, ⟨"b", 53⟩, ⟨"a", 53⟩] = early ++ decisive :: late ∧
      InTurn managerOfThree unexpired (early.map (recording awaitingThree tellings))
        (fun opened answers =>
          (∀ answer ∈ answers, ∃ verdict,
            answer = .recorded (.ok (some verdict)) ∧ verdict.report? = none) ∧
          deliveries opened = [] ∧
          InTurn managerOfThree unexpired [recording awaitingThree tellings decisive]
            (fun concluded answers =>
              (∃ verdict, answers = [.recorded (.ok (some verdict))] ∧
                Concluding poolOfThree awaitingThree beforeResults awaitedRows
                  (poolOfThree.nameservers.map fun server => rowOfThree server (tellings server))
                  verdict concluded) ∧
              InTurn managerOfThree unexpired (late.map (recording awaitingThree tellings))
                (fun final answers =>
                  (∀ answer ∈ answers, answer = .recorded (.ok none)) ∧
                  deliveries final = deliveries concluded ∧
                  final.surroundings.status = concluded.surroundings.status ∧
                  final.surroundings.registry = concluded.surroundings.registry) concluded)
            opened)
        ⟨beforeResults, []⟩ :=
  results_conclude_in_any_order rfl (by decide) (by decide) (by decide) (.of_eq rfl) (by decide)
    rfl (.of_eq rfl) (fun _ _ _ => rfl) rfl

end ZonePropagation.Propagation
