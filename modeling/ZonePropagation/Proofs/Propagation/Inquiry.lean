import Mathlib.Algebra.BigOperators.Ring.Finset
import ZonePropagation.Proofs.Probe.Attempts
import ZonePropagation.Proofs.Propagation.Polling
/-!
The questions of a poll.

A poll asks a nameserver again while its answers leave the change open and attempts are left, and
each answer takes the attempts that it tells of from those that the next question may make.  So a
poll ends at the first answer that confirms the change, rules it out or uses up the attempts, and
the exchanges of all its questions together are no more than one question may make.
-/

namespace ZonePropagation.Propagation

open Interleaving

/-! ### What an answer says -/

/-- The answer confirms the change: a deleted zone is unknown, and any other one is served at the
expected serial or at a newer one. -/
def Converged (action : ZoneAction) (expected : UInt32) (found : Probe) : Prop :=
  (action = .delete ∧ ∃ code, found.outcome = .noDomain code) ∨
    (action ≠ .delete ∧ found.outcome = .ok ∧
      ∃ serial, found.serial = some serial ∧ Serial.isAtLeast serial expected = true)

/-- The answer leaves the change open: a deleted zone is still served, and any other one is not yet
served, or at no serial that is the expected one or newer. -/
def Undetermined (action : ZoneAction) (expected : UInt32) (found : Probe) : Prop :=
  (action = .delete ∧ found.outcome = .ok) ∨
    (action ≠ .delete ∧ ∃ code, found.outcome = .noDomain code) ∨
    (action ≠ .delete ∧ found.outcome = .ok ∧
      ∀ serial, found.serial = some serial → Serial.isAtLeast serial expected = false)

/-- The answer rules the change out. -/
def Failed (action : ZoneAction) (expected : UInt32) (found : Probe) : Prop :=
  ¬ Converged action expected found ∧ ¬ Undetermined action expected found

theorem Finding.ofProbe_of_ne {action : ZoneAction} (serving : action ≠ .delete)
    (expected : UInt32) (found : Probe) :
    ofProbe action expected found =
      match found.outcome with
      | .noDomain _ => .undecided
      | .ok =>
          if (found.serial.any fun serial => Serial.isAtLeast serial expected) = true then .arrived
          else .undecided
      | _ => .failed := by
  unfold ofProbe
  cases action with
  | delete => exact absurd rfl serving
  | _ => cases found.outcome <;> rfl

theorem Finding.arrived_iff {action : ZoneAction} {expected : UInt32} {found : Probe} :
    ofProbe action expected found = .arrived ↔ Converged action expected found := by
  unfold Converged
  by_cases deleting : action = .delete
  · subst deleting
    unfold ofProbe
    cases outcome : found.outcome <;> simp
  · rw [ofProbe_of_ne deleting]
    cases outcome : found.outcome <;> simp [deleting, Option.any_eq_true]

theorem Finding.undecided_iff {action : ZoneAction} {expected : UInt32} {found : Probe} :
    ofProbe action expected found = .undecided ↔ Undetermined action expected found := by
  unfold Undetermined
  by_cases deleting : action = .delete
  · subst deleting
    unfold ofProbe
    cases outcome : found.outcome <;> simp
  · rw [ofProbe_of_ne deleting]
    cases outcome : found.outcome <;> simp [deleting, Option.any_eq_false]

theorem Finding.failed_iff {action : ZoneAction} {expected : UInt32} {found : Probe} :
    ofProbe action expected found = .failed ↔ Failed action expected found := by
  rw [Failed, ← arrived_iff, ← undecided_iff]
  cases ofProbe action expected found <;> simp

/-! ### The questions of a poll -/

structure Asked where
  zone : String
  server : Nameserver
  options : ProbeOptions
  found : Probe

def Asked.ofEvent? : Event → Option Asked
  | ⟨.probe .question zone server options, found⟩ => some ⟨zone, server, options, found⟩
  | _ => none

def questions (events : List Event) : List Asked :=
  (events.filterMap Asked.ofEvent?).reverse

theorem questions_nil : questions [] = [] := rfl

theorem questions_single (event : Event) : questions [event] = (Asked.ofEvent? event).toList := by
  cases found : Asked.ofEvent? event <;> simp [questions, found]

theorem questions_append (later earlier : List Event) :
    questions (later ++ earlier) = questions earlier ++ questions later := by
  simp [questions]

theorem questions_cons (event : Event) (events : List Event) :
    questions (event :: events) = questions events ++ (Asked.ofEvent? event).toList := by
  rw [← questions_single, ← questions_append]
  rfl

section Polls

variable {zone : Zone} {server : Nameserver} {options : ProbeOptions}

inductive Inquiry (zone : Zone) (server : Nameserver) (options : ProbeOptions) :
    (left : Nat) → List Asked → Status × Option UInt32 → Prop
  | last {left : Nat} {found : Probe}
      (closes : Finding.ofProbe zone.action zone.serial found ≠ .undecided ∨
        left ≤ max 1 found.attempts) :
      Inquiry zone server options left
        [⟨zone.name, server, { options with maxRetries := left }, found⟩] (resultOf zone found)
  | again {left : Nat} {found : Probe} {later : List Asked} {result : Status × Option UInt32}
      (undecided : Finding.ofProbe zone.action zone.serial found = .undecided)
      (remains : max 1 found.attempts < left)
      (rest : Inquiry zone server options (left - max 1 found.attempts) later result) :
      Inquiry zone server options left
        (⟨zone.name, server, { options with maxRetries := left }, found⟩ :: later) result

theorem poll_inquires (policy : VerificationPolicy) (zone : Zone) (server : Nameserver) :
    Yields (fun events result =>
        Inquiry zone server policy.probe policy.probe.budget (questions events) result)
      (poll policy zone server) := by
  have asks : Yields (fun events result =>
      Inquiry zone server policy.probe policy.probe.budget (questions events) result)
        (ask policy.probe zone server (policy.probe.budget - 1) policy.probe.budget) := by
    refine ask_yields
      (fun left events result => Inquiry zone server policy.probe left (questions events) result)
      (fun _ _ _ closes => .last closes) ?_ (Nat.le_max_left _ _) (by omega)
    intro left found reply paused later result undecided remains rest
    rw [questions_append]
    exact .again undecided remains rest
  unfold poll
  apply Yields.bind (pause_yields _)
  rintro delayed reply rfl
  split
  · apply asks.weaken
    intro later result inquiry
    rwa [questions_append]
  · apply Yields.bind (announcement_yields _)
    rintro earlier _ ⟨found, measured, rfl⟩
    apply asks.weaken
    intro later result inquiry
    rwa [List.append_assoc, questions_append]

/-! ### Where a poll stops -/

def Settles (action : ZoneAction) (expected : UInt32) (budget : Nat) (answers : Nat → Probe)
    (index : Nat) : Prop :=
  Converged action expected (answers index) ∨ Failed action expected (answers index) ∨
    budget ≤ ∑ asked ∈ Finset.range (index + 1), max 1 (answers asked).attempts

theorem settles_zero {action : ZoneAction} {expected : UInt32} {budget : Nat}
    {answers : Nat → Probe} :
    Settles action expected budget answers 0 ↔
      Finding.ofProbe action expected (answers 0) ≠ .undecided ∨
        budget ≤ max 1 (answers 0).attempts := by
  rw [Settles, ← Finding.arrived_iff, ← Finding.failed_iff, Finset.sum_range_one]
  cases Finding.ofProbe action expected (answers 0) <;> simp

theorem settles_succ {action : ZoneAction} {expected : UInt32} {budget : Nat}
    {answers : Nat → Probe} (index : Nat) :
    Settles action expected budget answers (index + 1) ↔
      Settles action expected (budget - max 1 (answers 0).attempts) (fun later => answers (later + 1))
        index := by
  unfold Settles
  rw [Finset.sum_range_succ', Nat.sub_le_iff_le_add]

theorem Inquiry.settles {left : Nat} {asked : List Asked} {result : Status × Option UInt32}
    (inquiry : Inquiry zone server options left asked result) (answers : Nat → Probe)
    (given : ∀ (index : Nat) (inside : index < asked.length), asked[index].found = answers index) :
    ∃ last, asked.length = last + 1 ∧ result = resultOf zone (answers last) ∧
      IsLeast {index | Settles zone.action zone.serial left answers index} last := by
  induction inquiry generalizing answers with
  | last closes =>
      have here := given 0 (Nat.zero_lt_one)
      dsimp only [List.getElem_cons_zero] at here
      refine ⟨0, rfl, by rw [here], settles_zero.mpr ?_, fun index _ => Nat.zero_le index⟩
      rwa [← here]
  | again undecided remains rest ih =>
      have here := given 0 (Nat.succ_pos _)
      dsimp only [List.getElem_cons_zero] at here
      obtain ⟨last, length, same, least⟩ := ih (fun later => answers (later + 1))
        fun index inside => given (index + 1) (Nat.succ_lt_succ inside)
      refine ⟨last + 1, congrArg (· + 1) length, same, isLeast_succ ?_ ?_⟩
      · rw [settles_zero, ← here, undecided]
        simp only [ne_eq, not_true_eq_false, false_or, Nat.not_le]
        exact remains
      · simpa only [settles_succ, here] using least

end Polls

/-! ### Polls that run -/

def askedBy {σ α : Type} (answer : (effect : Effect) → StateM σ (Reply effect)) :
    Program α → (start : σ) → List (Asked × σ)
  | .done _, _ => []
  | .perform effect next, start =>
      (Asked.ofEvent? ⟨effect, ((answer effect).run start).1⟩).toList.map (·, start) ++
        askedBy answer (next ((answer effect).run start).1) ((answer effect).run start).2

section Runs

variable {σ α : Type} (answer : (effect : Effect) → StateM σ (Reply effect))

theorem run_traces (program : Program α) (start : σ) :
    ∃ events, Traces program events ((program.run answer).run start).1 ∧
      questions events = (askedBy answer program start).map Prod.fst := by
  induction program generalizing start with
  | done value => exact ⟨[], .done, rfl⟩
  | perform effect next ih =>
      obtain ⟨events, trace, same⟩ :=
        ih ((answer effect).run start).1 ((answer effect).run start).2
      refine ⟨events ++ [⟨effect, ((answer effect).run start).1⟩], .perform trace, ?_⟩
      rw [questions_append, questions_single, same, askedBy, List.map_append, List.map_map]
      congr 1
      exact (List.map_id _).symm

theorem found_of_askedBy (program : Program α) (start : σ) {asked : Asked} {before : σ}
    (member : (asked, before) ∈ askedBy answer program start) :
    asked.found =
      ((answer (.probe .question asked.zone asked.server asked.options)).run before).1 := by
  induction program generalizing start with
  | done value => cases member
  | perform effect next ih =>
      rcases List.mem_append.mp member with here | later
      · obtain ⟨question, isAsked, same⟩ := List.mem_map.mp here
        cases same
        rw [Option.mem_toList] at isAsked
        cases effect with
        | probe kind zone server options =>
            cases kind with
            | announcement => cases isAsked
            | question =>
                cases isAsked
                rfl
        | _ => cases isAsked
      · exact ih _ _ later

end Runs

theorem run_perform {σ α : Type} (answer : (effect : Effect) → StateM σ (Reply effect))
    (effect : Effect) (next : Reply effect → Program α) (start : σ) :
    ((Task.perform effect next).run answer).run start =
      ((next ((answer effect).run start).1).run answer).run ((answer effect).run start).2 :=
  rfl

/-! ### Polls by a sequence of answers -/

def scripted (answers : Nat → Probe) (others : (effect : Effect) → Reply effect) :
    (effect : Effect) → StateM Nat (Reply effect)
  | .probe .question _ _ _ => fun asked => (answers asked, asked + 1)
  | effect => fun asked => (others effect, asked)

theorem askedBy_scripted {α : Type} (answers : Nat → Probe)
    (others : (effect : Effect) → Reply effect) (program : Program α) (start : Nat) :
    ((program.run (scripted answers others)).run start).2 =
        start + (askedBy (scripted answers others) program start).length ∧
      (askedBy (scripted answers others) program start).map Prod.snd =
        List.range' start (askedBy (scripted answers others) program start).length := by
  induction program generalizing start with
  | done value => exact ⟨rfl, rfl⟩
  | perform effect next ih =>
      have aside : ∀ reply, (scripted answers others effect).run start = (reply, start) →
          Asked.ofEvent? ⟨effect, reply⟩ = none →
          ((Task.run (scripted answers others) (.perform effect next)).run start).2 =
              start + (askedBy (scripted answers others) (.perform effect next) start).length ∧
            (askedBy (scripted answers others) (.perform effect next) start).map Prod.snd =
              List.range' start
                (askedBy (scripted answers others) (.perform effect next) start).length := by
        intro reply replied other
        simp only [askedBy, run_perform, replied, other]
        exact ih reply start
      cases effect with
      | probe kind zone server options =>
          cases kind with
          | announcement => exact aside _ rfl rfl
          | question =>
              obtain ⟨count, places⟩ := ih (answers start) (start + 1)
              have asks : askedBy (scripted answers others)
                  (.perform (.probe .question zone server options) next) start =
                (⟨zone, server, options, answers start⟩, start) ::
                  askedBy (scripted answers others) (next (answers start)) (start + 1) := rfl
              rw [asks, List.map_cons, List.length_cons, List.range'_succ, places, ← Nat.add_assoc,
                Nat.add_right_comm]
              exact ⟨count, rfl⟩
      | _ => exact aside _ rfl rfl

theorem found_scripted {α : Type} (answers : Nat → Probe)
    (others : (effect : Effect) → Reply effect) (program : Program α) {index : Nat}
    (inside : index < (askedBy (scripted answers others) program 0).length) :
    (askedBy (scripted answers others) program 0)[index].1.found = answers index := by
  have place := List.getElem_of_eq (askedBy_scripted answers others program 0).2
    (by rwa [List.length_map])
  rw [List.getElem_map, List.getElem_range', Nat.zero_add, Nat.one_mul] at place
  exact (found_of_askedBy _ program 0 (List.getElem_mem inside)).trans (congrArg answers place)

/-- A poll asks up to the first answer of a sequence at which it is settled, and that answer alone
is its result: whether it confirms the change, and the serial that it gives.  A deletion that is
confirmed has no serial. -/
theorem poll_stops_at_first_settling (policy : VerificationPolicy) (zone : Zone)
    (server : Nameserver) (answers : Nat → Probe) (others : (effect : Effect) → Reply effect) :
    ∃ last result,
      IsLeast {index | Settles zone.action zone.serial (max 1 policy.probe.maxRetries) answers index}
        last ∧
      ((poll policy zone server).run (scripted answers others)).run 0 = (result, last + 1) ∧
      (Converged zone.action zone.serial (answers last) →
        result = (.success, if zone.action = .delete then none else (answers last).serial)) ∧
      (¬ Converged zone.action zone.serial (answers last) →
        result = (.error, (answers last).serial)) := by
  obtain ⟨events, trace, same⟩ := run_traces (scripted answers others) (poll policy zone server) 0
  have inquiry := (poll_inquires policy zone server).shown _ _ trace
  rw [same] at inquiry
  obtain ⟨last, length, result, least⟩ := inquiry.settles answers fun index inside => by
    rw [List.getElem_map]
    exact found_scripted answers others _ (by rwa [List.length_map] at inside)
  have count := (askedBy_scripted answers others (poll policy zone server) 0).1
  rw [List.length_map] at length
  rw [length, Nat.zero_add] at count
  refine ⟨last, resultOf zone (answers last), least, Prod.ext result count, ?_, ?_⟩
  · intro converged
    rw [resultOf, if_pos (Finding.arrived_iff.mpr converged)]
    rfl
  · intro missed
    rw [resultOf, if_neg (missed ∘ Finding.arrived_iff.mp)]

/-! ### Polls by a client -/

theorem Inquiry.spends {zone : Zone} {server : Nameserver} {options : ProbeOptions} {left : Nat}
    {asked : List Asked} {result : Status × Option UInt32}
    (inquiry : Inquiry zone server options left asked result) (positive : 1 ≤ left)
    (allowed : ∀ question ∈ asked, 1 ≤ question.found.attempts ∧
      question.found.attempts ≤ max 1 question.options.maxRetries) :
    (∀ question ∈ asked, question.zone = zone.name ∧ question.server = server ∧
        1 ≤ question.options.maxRetries) ∧
      (asked.map fun question => question.found.attempts).sum ≤ left ∧
      ∃ final, asked.getLast? = some final ∧
        (Finding.ofProbe zone.action zone.serial final.found ≠ .undecided ∨
          (asked.map fun question => question.found.attempts).sum = left) := by
  induction inquiry with
  | @last left found closes =>
      obtain ⟨some_, few⟩ := allowed _ (.head _)
      dsimp only at some_ few
      refine ⟨?_, ?_, _, rfl, closes.imp_right fun spent => ?_⟩
      · intro question member
        rw [List.mem_singleton.mp member]
        exact ⟨rfl, rfl, positive⟩
      · simp
        omega
      · simp
        omega
  | @again left found later result undecided remains rest ih =>
      obtain ⟨some_, few⟩ := allowed _ (.head _)
      dsimp only at some_ few
      obtain ⟨offered, within, final, isLast, ends⟩ :=
        ih (by omega) fun question member => allowed question (.tail _ member)
      refine ⟨?_, ?_, final, ?_, ends.imp_right fun all => ?_⟩
      · intro question member
        rcases List.mem_cons.mp member with rfl | after
        · exact ⟨rfl, rfl, positive⟩
        · exact offered question after
      · rw [List.map_cons, List.sum_cons]
        dsimp only
        omega
      · rw [List.getLast?_cons, isLast]
        rfl
      · rw [List.map_cons, List.sum_cons]
        dsimp only
        omega

def byClient {σ : Type} (client : Client) (net : Transport (StateM σ))
    (others : (effect : Effect) → StateM σ (Reply effect)) :
    (effect : Effect) → StateM σ (Reply effect)
  | .probe .question zone server options => client.querySerial net zone server options
  | effect => others effect

section Clients

variable {σ : Type} (client : Client) (net : Transport (StateM σ))
  (others : (effect : Effect) → StateM σ (Reply effect))

theorem found_byClient {α : Type} (program : Program α) (start : σ) {asked : Asked} {before : σ}
    (member : (asked, before) ∈ askedBy (byClient client net others) program start) :
    asked.found =
      ((client.querySerial net asked.zone asked.server asked.options).run before).1 :=
  found_of_askedBy _ program start member

theorem sum_exchanges {α : Type} (program : Program α) (start : σ) :
    ((askedBy (byClient client net others) program start).map fun (asked, before) =>
        client.exchanges net asked.zone asked.server asked.options before).sum =
      (((((askedBy (byClient client net others) program start).map Prod.fst).map fun asked =>
        asked.found.attempts).sum : Nat) : ℕ∞) := by
  rw [Nat.cast_list_sum, List.map_map, List.map_map]
  congr 1
  apply List.map_congr_left
  rintro ⟨asked, before⟩ member
  simp only [Function.comp_apply]
  rw [found_byClient client net others program start member, client.querySerial_attempts net]

/-- However its exchanges end, a client makes those up to the first settled outcome, or else as
many as the options allow; it tells how many they were, and the last one decides the outcome.  All
questions of a poll together make no more exchanges than the options of the poll allow.  Each
question is allowed one at least, and the poll ends at an answer that confirms the change or rules
it out, or else when all the exchanges are made. -/
theorem exchanges_share_budget :
    (∀ (request : Message) (server : Nameserver) (options : ProbeOptions) (start : σ),
      let exchange := client.exchange net request server options.timeout
      let rest := net.pause options.retryInterval
      ∃ last, ((last + 1 : Nat) : ℕ∞) = min (Client.firstSettled exchange rest start)
          ((max 1 options.maxRetries : Nat) : ℕ∞) ∧
        (client.settle net request server options).run start =
          let final := Client.attemptAt exchange rest start last
          ((final.1.1, final.1.2, last + 1), final.2)) ∧
    ∀ (policy : VerificationPolicy) (zone : Zone) (server : Nameserver) (start : σ),
      let asked := askedBy (byClient client net others) (poll policy zone server) start
      let made := (asked.map fun (question, before) =>
        client.exchanges net question.zone question.server question.options before).sum
      made ≤ ((max 1 policy.probe.maxRetries : Nat) : ℕ∞) ∧
        (∀ question ∈ asked, question.1.zone = zone.name ∧ question.1.server = server ∧
          1 ≤ question.1.options.maxRetries) ∧
        ∃ final, asked.getLast? = some final ∧
          (¬ Undetermined zone.action zone.serial final.1.found ∨
            made = ((max 1 policy.probe.maxRetries : Nat) : ℕ∞)) := by
  refine ⟨client.settle_eq net, ?_⟩
  intro policy zone server start asked made
  obtain ⟨events, trace, same⟩ :=
    run_traces (byClient client net others) (poll policy zone server) start
  have inquiry := (poll_inquires policy zone server).shown _ _ trace
  rw [same] at inquiry
  obtain ⟨offered, within, final, isLast, ends⟩ := inquiry.spends (Nat.le_max_left _ _) <| by
    intro question member
    obtain ⟨⟨question, before⟩, pair, rfl⟩ := List.mem_map.mp member
    rw [found_byClient client net others _ start pair]
    exact client.querySerial_bounds net question.zone question.server question.options before
  have counted : made = _ := sum_exchanges client net others (poll policy zone server) start
  rw [List.getLast?_map, Option.map_eq_some_iff] at isLast
  obtain ⟨final, isLast, rfl⟩ := isLast
  refine ⟨?_, ?_, final, isLast, ends.imp ?_ ?_⟩
  · rw [counted]
    exact_mod_cast within
  · intro question member
    exact offered question.1 (List.mem_map_of_mem member)
  · rw [ne_eq, Finding.undecided_iff]
    exact id
  · intro all
    rw [counted, all]
    rfl

end Clients

end ZonePropagation.Propagation
