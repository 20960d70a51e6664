import ZonePropagation.Proofs.Propagation.Undelivered
import ZonePropagation.Proofs.Propagation.ZoneState
/-!
What an attempt comes to when nameservers and targets answer the same each time.

Work that an attempt hands out may be done in any order.  Targets and servers that are only told
leave no trace, and each verification writes the row of its own nameserver, so that the rows are the
same in the end.  So the attempt has one result, and leaves one state of its zone.
-/

namespace ZonePropagation.Propagation

open Interleaving Status.Memory

variable {behaviour : Behaviour} {manager : Manager} {α β : Type}

/-- Tasks side by side, each of which takes its steps in turn, come to these results. -/
inductive Finishes (behaviour : Behaviour) :
    List (Program Result) → ZoneState → List Result → ZoneState → Prop
  | done {results : List Result} {state : ZoneState} :
      Finishes behaviour (results.map .done) state results state
  | step {before behind : List (Program Result)} {effect : Effect}
      {next : Reply effect → Program Result} {reply : Reply effect} {state between after : ZoneState}
      {results : List Result} (meets : state.Meets behaviour effect reply between)
      (rest : Finishes behaviour (before ++ next reply :: behind) between results after) :
      Finishes behaviour (before ++ .perform effect next :: behind) state results after

/-- A program that works on the state of one zone, with work that it hands out done in any order. -/
def secluded (behaviour : Behaviour) (manager : Manager) : Conduct ZoneState where
  answers := fun state effect reply after =>
    (isFork effect = false ∧ state.Meets behaviour effect reply after) ∨
    ∃ width work results, (⟨effect, reply⟩ : Event) = ⟨.fork width work, results⟩ ∧
      Finishes behaviour (work.map manager.program) state results after
  rely := Eq
  rule := fun _ _ => True
  rely_refl := fun _ => rfl
  rely_trans := Eq.trans

/-! ### Tasks that leave no trace -/

/-- The program asks the outside only, and comes to the value. -/
def Tells (behaviour : Behaviour) (value : α) : Program α → Prop
  | .done found => found = value
  | .perform effect next => isQuiet effect = true ∧
      ∀ reply, behaviour.Fits ⟨effect, reply⟩ → Tells behaviour value (next reply)

theorem ZoneState.Meets.quiet {state after : ZoneState} {effect : Effect} {reply : Reply effect}
    (meets : state.Meets behaviour effect reply after) (quiet : isQuiet effect = true) :
    behaviour.Fits ⟨effect, reply⟩ ∧ after = state := by
  cases effect with
  | clearRows _ | storeRow _ _ _ _ | readRows _ | deliver _ => cases quiet
  | _ => exact meets

theorem Tells.bind {value : α} {last : β} {program : Program α} {follow : α → Program β}
    (first : Tells behaviour value program) (second : Tells behaviour last (follow value)) :
    Tells behaviour last (program >>= follow) := by
  change Tells behaviour last (program.andThen follow)
  induction program with
  | done found =>
      cases first
      exact second
  | perform effect next ih => exact ⟨first.1, fun reply fits => ih reply (first.2 reply fits)⟩

theorem Asks.exists_tells {program : Program α} (asks : Asks program) :
    ∃ value, Tells behaviour value program := by
  induction program with
  | done value => exact ⟨value, rfl⟩
  | perform effect next ih =>
      cases effect with
      | probe kind zone server options =>
          obtain ⟨value, tells⟩ := ih _ (asks.2 (behaviour.found kind zone server options))
          refine ⟨value, rfl, ?_⟩
          rintro reply rfl
          exact tells
      | measure _ | pause _ =>
          obtain ⟨value, tells⟩ := ih () (asks.2 ())
          exact ⟨value, rfl, fun _reply _fits => tells⟩
      | _ => cases asks.1

theorem change_tells (target : String) (zone : Zone) :
    Tells behaviour (behaviour.accepts target zone) (change target zone) := by
  refine ⟨rfl, ?_⟩
  rintro (_ | ⟨type, accepted⟩) fits
  · exact fits
  · exact ⟨rfl, fun _reply _fits => fits⟩

theorem results_of_done {Item : Type} {entries : List (Item × Program Result)}
    {results : List Result} {value : Item × Program Result → Result}
    (done : entries.map Prod.snd = results.map Task.done)
    (shown : ∀ entry ∈ entries, ∀ result, entry.2 = .done result → result = value entry) :
    results = entries.map value := by
  induction entries generalizing results with
  | nil => exact (List.map_eq_nil_iff.mp done.symm)
  | cons entry entries ih =>
      obtain ⟨result, others, rfl, first, rest⟩ := List.map_eq_cons_iff.mp done.symm
      rw [List.map_cons, shown entry List.mem_cons_self result first.symm,
        ih rest.symm fun other member => shown other (List.mem_cons_of_mem _ member)]

theorem Finishes.of_tells {entries : List (Result × Program Result)} {state after : ZoneState}
    {results : List Result} (tells : ∀ entry ∈ entries, Tells behaviour entry.1 entry.2)
    (finishes : Finishes behaviour (entries.map Prod.snd) state results after) :
    results = entries.map Prod.fst ∧ after = state := by
  generalize same : entries.map Prod.snd = tasks at finishes
  induction finishes generalizing entries with
  | @done results state =>
      refine ⟨results_of_done same ?_, rfl⟩
      intro entry member result done
      have told := tells entry member
      rwa [done] at told
  | @step before behind effect next reply state between after results meets _rest ih =>
      obtain ⟨near, rest, rfl, rfl, sameRest⟩ := List.map_eq_append_iff.mp same
      obtain ⟨⟨value, task⟩, far, rfl, sameTask, rfl⟩ := List.map_eq_cons_iff.mp sameRest
      obtain rfl : task = .perform effect next := sameTask
      obtain ⟨quiet, goesOn⟩ := tells (value, .perform effect next) (by simp)
      obtain ⟨fits, rfl⟩ := meets.quiet quiet
      have left := @ih (near ++ (value, next reply) :: far)
        (forall_mem_replaced tells (goesOn reply fits)) (by simp)
      simpa using left

/-! ### Verifications side by side -/

section Round

variable {key : ActionKey}

@[simp] theorem ZoneState.withRows_rows (state : ZoneState) (action : ZoneAction)
    (rows : Multiset Shown) : (state.withRows action rows).rows action = rows := by
  simp [withRows]

@[simp] theorem ZoneState.withRows_withRows (state : ZoneState) (action : ZoneAction)
    (first second : Multiset Shown) :
    (state.withRows action first).withRows action second = state.withRows action second := by
  simp [withRows]

theorem ZoneState.withRows_self (state : ZoneState) (action : ZoneAction) :
    state.withRows action (state.rows action) = state := by
  simp [withRows]

theorem filter_putAmong {written : Shown} {server : Nameserver} (different : written.1 ≠ server)
    (rows : Multiset Shown) : (putAmong written rows).filter (fun row => row.1 ≠ server) =
      written ::ₘ rows.filter fun row => row.1 ≠ written.1 ∧ row.1 ≠ server := by
  unfold putAmong
  rw [Multiset.filter_cons, if_pos different, Multiset.filter_filter, Multiset.singleton_add]
  simp only [and_comm]

theorem putAmong_comm {first second : Shown} (single : first.1 = second.1 → first = second)
    (rows : Multiset Shown) :
    putAmong second (putAmong first rows) = putAmong first (putAmong second rows) := by
  by_cases same : first.1 = second.1
  · rw [single same]
  · have left := filter_putAmong same rows
    have right := filter_putAmong (Ne.symm same) rows
    rw [putAmong, left, putAmong, right, Multiset.cons_swap]
    simp only [and_comm]

/-- The task has yet to find out about a nameserver, and to store this. -/
def Pending (behaviour : Behaviour) (key : ActionKey) (written : Shown) (task : Program Result) :
    Prop :=
  ∃ program, Tells behaviour written.2 program ∧ task = program >>= fun found =>
    Result.stored <$> (storeRow key written.1 found.1 found.2).run

theorem Pending.next {written : Shown} {task : Program Result}
    (pending : Pending behaviour key written task) :
    task = .perform (.storeRow key written.1 written.2.1 written.2.2)
        (fun reply => .done (.stored reply)) ∨
      ∃ effect next, task = .perform effect next ∧ isQuiet effect = true ∧
        ∀ reply, behaviour.Fits ⟨effect, reply⟩ → Pending behaviour key written (next reply) := by
  obtain ⟨program, tells, rfl⟩ := pending
  cases program with
  | done found =>
      obtain rfl : found = written.2 := tells
      exact .inl rfl
  | perform effect next =>
      exact .inr ⟨effect, _, rfl, tells.1, fun reply fits => ⟨next reply, tells.2 reply fits, rfl⟩⟩

/-- A task of a round: what it has yet to store if it is not done, and what is left of it. -/
def Entry (behaviour : Behaviour) (key : ActionKey) : Option Shown × Program Result → Prop
  | (some written, task) => Pending behaviour key written task
  | (none, task) => task = .done (.stored (.ok ()))

theorem Entry.of_done {entry : Option Shown × Program Result} {result : Result}
    (here : Entry behaviour key entry) (done : entry.2 = .done result) :
    entry.1 = none ∧ result = .stored (.ok ()) := by
  obtain ⟨pending, task⟩ := entry
  obtain rfl : task = .done result := done
  cases pending with
  | none =>
      cases here
      exact ⟨rfl, rfl⟩
  | some written =>
      rcases Pending.next here with stores | ⟨_, _, asks, -⟩
      · cases stores
      · cases asks

/-- When all tasks of a round are done, each has stored what it had to, whatever the order. -/
theorem Finishes.of_round {all stored : List Shown}
    {entries : List (Option Shown × Program Result)} {start state after : ZoneState}
    {results : List Result}
    (single : ∀ first ∈ all, ∀ second ∈ all, first.1 = second.1 → first = second)
    (each : ∀ entry ∈ entries, Entry behaviour key entry)
    (covered : (stored ++ entries.filterMap Prod.fst).Perm all)
    (written : state = start.withRows key.action (stored.foldr putAmong (start.rows key.action)))
    (finishes : Finishes behaviour (entries.map Prod.snd) state results after) :
    results = entries.map (fun _ => .stored (.ok ())) ∧
      after = start.withRows key.action (all.foldr putAmong (start.rows key.action)) := by
  -- The rows stored so far belong to the tasks that are done, in the order in which they came; what
  -- is stored and what is yet to be stored stay the same together.
  generalize same : entries.map Prod.snd = tasks at finishes
  induction finishes generalizing entries stored with
  | @done results state =>
      have ended : ∀ entry ∈ entries, entry.1 = none := by
        intro entry member
        have among : entry.2 ∈ results.map Task.done := by
          rw [← same]
          exact List.mem_map_of_mem member
        obtain ⟨result, -, finished⟩ := List.mem_map.mp among
        exact (Entry.of_done (each entry member) finished.symm).1
      have none : entries.filterMap Prod.fst = [] := List.filterMap_eq_nil_iff.mpr ended
      rw [none, List.append_nil] at covered
      refine ⟨results_of_done same fun entry member result finished =>
        (Entry.of_done (each entry member) finished).2, ?_⟩
      rw [written]
      congr 1
      apply covered.foldr_eq'
      intro first inFirst second inSecond rows
      exact putAmong_comm (single first (covered.mem_iff.mp inFirst) second
        (covered.mem_iff.mp inSecond)) rows
  | @step before behind effect next reply state between after results meets _rest ih =>
      obtain ⟨near, rest, rfl, rfl, sameRest⟩ := List.map_eq_append_iff.mp same
      obtain ⟨⟨pending, task⟩, far, rfl, sameTask, rfl⟩ := List.map_eq_cons_iff.mp sameRest
      obtain rfl : task = .perform effect next := sameTask
      have here := each (pending, .perform effect next) (by simp)
      cases pending with
      | none => cases here
      | some shown =>
          rcases Pending.next here with stores | ⟨_, _, asks, quiet, goesOn⟩
          · cases stores
            obtain ⟨rfl, rfl⟩ := meets
            have moved : ((shown :: stored) ++ (near ++
                (none, Task.done (.stored (.ok ()))) :: far).filterMap Prod.fst).Perm all := by
              refine List.Perm.trans ?_ covered
              simp only [List.filterMap_append, List.filterMap_cons, ← List.append_assoc]
              exact List.perm_middle.symm
            have left := @ih (shown :: stored) (near ++ (none, .done (.stored (.ok ()))) :: far)
              (forall_mem_replaced each rfl) moved (by rw [written]; simp) (by simp)
            simpa using left
          · cases asks
            obtain ⟨fits, rfl⟩ := meets.quiet quiet
            have left := @ih stored (near ++ (some shown, next reply) :: far)
              (forall_mem_replaced each (goesOn reply fits)) (by simpa using covered) written
              (by simp)
            simpa using left

end Round

/-! ### Programs with one outcome -/

def Determined (behaviour : Behaviour) (manager : Manager) (program : Program α)
    (state : ZoneState) : Prop :=
  ∃ value after, (secluded behaviour manager).Along
    (fun later found => later = after ∧ found = value) program state

section Secluded

variable {state : ZoneState}

theorem secluded_performs {effect : Effect} {goal : ZoneState → Reply effect → Prop}
    (single : isFork effect = false)
    (met : ∀ reply after, state.Meets behaviour effect reply after → goal after reply) :
    (secluded behaviour manager).Along goal (perform effect) state := by
  apply Conduct.Along.perform (fun _ _ => trivial)
  rintro later reply after rfl (⟨-, meets⟩ | ⟨_, _, _, same, -⟩) last rfl
  · exact met reply after meets
  · cases same
    cases single

theorem secluded_forks {width : Nat} {work : List Operation}
    {goal : ZoneState → List Result → Prop}
    (met : ∀ results after, Finishes behaviour (work.map manager.program) state results after →
      goal after results) :
    (secluded behaviour manager).Along goal (perform (.fork width work)) state := by
  apply Conduct.Along.perform (fun _ _ => trivial)
  rintro later reply after rfl (⟨single, -⟩ | ⟨_, _, _, same, finishes⟩) last rfl
  · cases single
  · cases same
    exact met reply after finishes

end Secluded

namespace Determined

variable {state : ZoneState}

theorem pure (value : α) : Determined behaviour manager (Pure.pure value : Program α) state :=
  ⟨value, state, .pure fun _later same => ⟨same.symm, rfl⟩⟩

theorem bind {program : Program α} {follow : α → Program β}
    (first : Determined behaviour manager program state)
    (second : ∀ value after, Determined behaviour manager (follow value) after) :
    Determined behaviour manager (program >>= follow) state := by
  obtain ⟨value, between, along⟩ := first
  obtain ⟨last, after, goesOn⟩ := second value between
  refine ⟨last, after, Conduct.Along.bind along ?_⟩
  rintro later found ⟨rfl, rfl⟩
  exact goesOn

theorem perform {effect : Effect} {reply : Reply effect} {after : ZoneState}
    (single : isFork effect = false)
    (unique : ∀ other later, state.Meets behaviour effect other later →
      later = after ∧ other = reply) :
    Determined behaviour manager (Propagation.perform effect) state :=
  ⟨reply, after, secluded_performs single unique⟩

theorem tries {program : Fallible α} {follow : α → Fallible β}
    (first : Determined behaviour manager program.run state)
    (second : ∀ value after, Determined behaviour manager (follow value).run after) :
    Determined behaviour manager (program >>= follow).run state := by
  apply first.bind
  rintro (fault | value) after
  · exact .pure _
  · exact second value after

theorem lift {program : Program α} (determined : Determined behaviour manager program state) :
    Determined behaviour manager (liftM program : Fallible α).run state :=
  determined.bind fun _ _ => .pure _

theorem triesForM {items : List β} {body : β → Fallible PUnit}
    (each : ∀ item after, Determined behaviour manager (body item).run after) :
    Determined behaviour manager (items.forM body).run state := by
  induction items generalizing state with
  | nil => exact .pure _
  | cons item items ih => exact (each item state).tries fun _done _after => ih

theorem triesForIn {items : List α} {body : α → PUnit → Fallible (ForInStep PUnit)}
    (each : ∀ item after, Determined behaviour manager (body item ⟨⟩).run after) :
    Determined behaviour manager (ForIn.forIn items PUnit.unit body : Fallible PUnit).run state := by
  induction items generalizing state with
  | nil => exact .pure _
  | cons item items ih =>
      rw [List.forIn_cons]
      apply (each item state).tries
      intro next after
      cases next with
      | done _ => exact .pure _
      | yield _ => exact ih

theorem locked {key : ActionKey} {work : Program α}
    (within : Determined behaviour manager work state) :
    Determined behaviour manager (locked key work) state := by
  obtain ⟨value, after, along⟩ := within
  have turns : ∀ {effect : Effect} {now : ZoneState}, turnsLocks effect = true →
      (secluded behaviour manager).Along (fun later _ => later = now)
        (Propagation.perform effect) now := by
    intro effect now turning
    cases effect with
    | enter _ | acquire _ | release _ | retire _ _ | leave _ =>
        exact secluded_performs rfl fun _reply _after meets => meets.2
    | _ => cases turning
  refine ⟨value, after, ?_⟩
  unfold Propagation.locked
  apply Conduct.Along.bind (turns rfl)
  rintro _ lock rfl
  apply Conduct.Along.bind (turns rfl)
  rintro _ _ rfl
  apply Conduct.Along.bind along
  rintro _ _ ⟨rfl, rfl⟩
  apply Conduct.Along.bind (turns rfl)
  rintro _ _ rfl
  apply Conduct.Along.bind (turns rfl)
  rintro _ _ rfl
  apply Conduct.Along.bind (turns rfl)
  rintro _ _ rfl
  exact .pure fun _last same => ⟨same.symm, rfl⟩

end Determined

section Programs

variable {policy : VerificationPolicy} {pool : Pool} {zone : Zone} {status : Status}
  {serial : UInt32} {state : ZoneState}

theorem clearRows_determined (key : ActionKey) :
    Determined behaviour manager (clearRows key).run state :=
  .perform rfl fun _ _ meets => ⟨meets.2, meets.1⟩

theorem storeRow_determined (key : ActionKey) (server : Nameserver) (status : Status)
    (serial : Option UInt32) :
    Determined behaviour manager (storeRow key server status serial).run state :=
  .perform rfl fun _ _ meets => ⟨meets.2, meets.1⟩

theorem measure_determined (thing : Measure) :
    Determined behaviour manager (measure thing) state :=
  ⟨(), state, secluded_performs rfl fun _ _ meets => ⟨meets.2, rfl⟩⟩

theorem deliver_determined :
    Determined behaviour manager (deliver policy zone status serial) state := by
  have again : ∀ report millis left state,
      Determined behaviour manager (deliverAgain report millis left) state := by
    intro report millis left
    have once : ∀ state, Determined behaviour manager (perform (.deliver report)) state :=
      fun state => .perform rfl fun _ _ meets => ⟨meets.2, meets.1⟩
    induction left generalizing millis with
    | zero => exact fun state => (once state).bind fun _ _ => .pure _
    | succ left ih =>
        intro state
        apply (once state).bind
        intro reply after
        have paused : Determined behaviour manager (perform (.pauseUpTo millis)) after :=
          ⟨(), after, secluded_performs rfl fun _ _ meets => ⟨meets.2, rfl⟩⟩
        split
        · exact .pure _
        · exact .pure _
        · exact paused.bind fun _ later => ih (nextPause millis) later
  unfold deliver
  apply (again _ _ _ state).bind
  intro accepted after
  split
  · exact .pure _
  · exact (measure_determined _).bind fun _ _ => .pure _

theorem conclude_determined :
    Determined behaviour manager (conclude policy zone status serial).run state := by
  unfold conclude
  apply (measure_determined _).lift.tries
  intro _measured after
  apply deliver_determined.lift.tries
  intro accepted later
  split
  · exact clearRows_determined _
  · exact .pure _

theorem exists_verdict (pool : Pool) (expected : UInt32) (content : Multiset Shown) :
    ∃ verdict, ∀ rows : List StatusRecord, (rows.map shown : Multiset Shown) = content →
      pool.verdict expected rows = verdict := by
  by_cases some : ∃ rows : List StatusRecord, (rows.map shown : Multiset Shown) = content
  · obtain ⟨rows, rfl⟩ := some
    exact ⟨_, fun others same => verdict_eq_of_perm (Multiset.coe_eq_coe.mp same)⟩
  · exact ⟨.pending 0 0 0, fun rows same => absurd ⟨rows, same⟩ some⟩

theorem decide_determined : Determined behaviour manager (decide policy pool zone).run state := by
  obtain ⟨verdict, unique⟩ := exists_verdict pool zone.serial
    ((state.rows zone.key.action).filter fun row => behaviour.lasts zone.key row = true)
  have read : (secluded behaviour manager).Along (fun later (reply : Except Fault _) =>
      later = state ∧ ∃ rows, reply = .ok rows ∧ pool.verdict zone.serial rows = verdict)
      (perform (.readRows zone.key)) state := by
    apply secluded_performs rfl
    rintro reply later ⟨⟨rows, rfl, shows⟩, rfl⟩
    exact ⟨rfl, rows, rfl, unique rows shows⟩
  cases report : verdict.report? with
  | none =>
      refine ⟨.ok verdict, state, Conduct.Along.bind read ?_⟩
      rintro later reply ⟨rfl, rows, rfl, same⟩
      subst same
      dsimp only [ExceptT.bindCont]
      rw [report]
      exact .pure fun _last same => ⟨same.symm, rfl⟩
  | some reported =>
      obtain ⟨status, serial⟩ := reported
      have concluded : Determined behaviour manager
          (conclude policy zone status serial >>= fun _ => pure verdict : Fallible Verdict).run state :=
        conclude_determined.tries fun _ _ => .pure _
      obtain ⟨value, after, along⟩ := concluded
      refine ⟨value, after, Conduct.Along.bind read ?_⟩
      rintro later reply ⟨rfl, rows, rfl, same⟩
      subst same
      dsimp only [ExceptT.bindCont]
      rw [report]
      exact along

theorem sideBySide_determined {Item : Type} {items : List Item} {operation : Item → Operation}
    (tells : ∀ item, ∃ result, Tells behaviour result (manager.program (operation item))) :
    Determined behaviour manager (sideBySide (items.map operation)) state := by
  choose result told using tells
  let entry (item : Item) : Result × Program Result :=
    (result item, manager.program (operation item))
  have same : (items.map entry).map Prod.snd = (items.map operation).map manager.program := by
    simp [entry]
  refine ⟨items.map result, state, secluded_forks ?_⟩
  intro results after finishes
  rw [← same] at finishes
  have each : ∀ one ∈ items.map entry, Tells behaviour one.1 one.2 :=
    List.forall_mem_map.mpr fun item _member => told item
  obtain ⟨rfl, rfl⟩ := finishes.of_tells each
  exact ⟨rfl, by simp [entry]⟩

theorem dispatch_determined : Determined behaviour manager (dispatch pool zone) state := by
  have asked : Determined behaviour manager
      (sideBySide (pool.targets.map fun target => .change target.id zone)) state :=
    sideBySide_determined fun target => ⟨_, (change_tells target.id zone).bind rfl⟩
  exact asked.bind fun _ _ => .pure _

theorem announceToOthers_determined :
    Determined behaviour manager (announceToOthers pool zone) state := by
  unfold announceToOthers
  split
  · exact .pure _
  · have told : Determined behaviour manager
        (sideBySide (pool.alsoNotifies.map (.announce zone))) state := by
      apply sideBySide_determined
      intro server
      obtain ⟨found, tells⟩ := (probe_asks .announcement zone server
        { manager.policy.probe with maxRetries := 1 }).exists_tells
      have announced : Tells behaviour () (discard (probe .announcement zone server
        { manager.policy.probe with maxRetries := 1 })) := tells.bind rfl
      exact ⟨.finished true, announced.bind rfl⟩
    exact told.bind fun _ _ => .pure _

/-- After a round of verifications each nameserver has its row, whichever came first. -/
theorem verifications_determined (servers : List Nameserver) :
    Determined behaviour manager (sideBySide (servers.map (.verify zone))) state := by
  have asks : ∀ server, ∃ found, Tells behaviour found (verifyServer manager.policy zone server) :=
    fun server => (verifyServer_asks manager.policy zone server).exists_tells
  choose found tells using asks
  let written (server : Nameserver) : Shown := (server, found server)
  let entry (server : Nameserver) : Option Shown × Program Result :=
    (some (written server), manager.program (.verify zone server))
  have same : (servers.map entry).map Prod.snd =
      (servers.map (.verify zone)).map manager.program := by simp [entry]
  have each : ∀ one ∈ servers.map entry, Entry behaviour zone.key one :=
    List.forall_mem_map.mpr fun server _member => ⟨_, tells server, rfl⟩
  have covered : ([] ++ (servers.map entry).filterMap Prod.fst).Perm (servers.map written) := by
    rw [List.filterMap_map]
    simp [entry]
  have single : ∀ first ∈ servers.map written, ∀ second ∈ servers.map written,
      first.1 = second.1 → first = second := by
    intro first inFirst second inSecond named
    obtain ⟨server, -, rfl⟩ := List.mem_map.mp inFirst
    obtain ⟨other, -, rfl⟩ := List.mem_map.mp inSecond
    obtain rfl : server = other := named
    rfl
  let rows := (servers.map written).foldr putAmong (state.rows zone.key.action)
  refine ⟨servers.map fun _ => Result.stored (.ok ()), state.withRows zone.key.action rows,
    secluded_forks ?_⟩
  intro results after finishes
  rw [← same] at finishes
  obtain ⟨rfl, rfl⟩ := finishes.of_round single each covered (state.withRows_self _).symm
  exact ⟨rfl, List.map_map⟩

theorem verify_determined (inline : manager.policy.detached = false) :
    Determined behaviour manager (verify manager.policy pool zone).run state := by
  have pending : ∀ server state, Determined behaviour manager
      (storeRow zone.key server .pending none).run state :=
    fun server state => storeRow_determined _ _ _ _
  unfold verify
  apply (Determined.triesForM pending).tries
  intro _stored written
  rw [inline, Bool.false_and, if_neg Bool.false_ne_true]
  apply (verifications_determined pool.nameservers).lift.tries
  intro results polled
  refine Determined.tries (Determined.triesForIn fun result after => ?_) ?_
  · split
    · exact .pure _
    · exact .pure _
  intro _checked checked
  have decided : Determined behaviour manager
      (locked zone.key (decide manager.policy pool zone).run) checked := .locked decide_determined
  apply decided.tries
  intro verdict later
  split
  · exact .pure _
  · exact .pure _

theorem giveUp_determined : Determined behaviour manager (giveUp policy pool zone).run state := by
  unfold giveUp
  have failed : ∀ server state, Determined behaviour manager
      (storeRow zone.key server .error none).run state :=
    fun server state => storeRow_determined _ _ _ _
  apply (Determined.triesForM failed).tries
  intro _stored written
  exact conclude_determined.tries fun _ _ => .pure _

theorem propagate_determined (inline : manager.policy.detached = false) (action : ZoneAction) :
    Determined behaviour manager (manager.propagate zone action).run state := by
  unfold Manager.propagate
  have found : Determined behaviour manager (manager.pool zone).run state := .pure _
  apply found.tries
  intro pool start
  apply (clearRows_determined _).tries
  intro _cleared empty
  apply dispatch_determined.lift.tries
  intro accepted asked
  split
  · exact giveUp_determined
  · apply announceToOthers_determined.lift.tries
    exact fun _ _ => verify_determined inline

theorem recover_determined (inline : manager.policy.detached = false) :
    Determined behaviour manager (manager.recover zone).run state := by
  unfold Manager.recover
  have found : Determined behaviour manager (manager.pool zone).run state := .pure _
  apply found.tries
  intro pool start
  apply (clearRows_determined _).tries
  exact fun _ _ => verify_determined inline

end Programs

end ZonePropagation.Propagation
