import ZonePropagation.Proofs.Interleaving.Alone
import ZonePropagation.Proofs.Propagation.Inquiry
import ZonePropagation.Proofs.Propagation.Sequence
/-!
What targets and nameservers respond to an attempt.

Responses are given beforehand: what each target replies to its first call, to its second one and
so on, and what each nameserver answers to the first question that it is asked, to the second one
and so on.  An attempt that works alone calls every target as often as the pool names it, and puts
to every nameserver the questions of one poll, so that the responses decide what it hears.
-/

namespace ZonePropagation.Propagation

open Interleaving

/-! ### Responses -/

/-- What the targets reply to their calls, and the nameservers answer to their questions. -/
structure Responses where
  accepts : (target : String) → (call : Nat) → Bool
  answers : (server : Nameserver) → (question : Nat) → Probe

def replyOf? (target : String) : Event → Option Bool
  | ⟨.callBackend called _ _, reply⟩ =>
      if called = target then some (reply.any Prod.snd) else none
  | _ => none

def repliesOf (target : String) (events : List Event) : List Bool :=
  (events.filterMap (replyOf? target)).reverse

def questionsTo (server : Nameserver) (events : List Event) : List Asked :=
  (questions events).filter (·.server == server)

/-- The event is what the responses give after the earlier ones. -/
def Responses.gives (responses : Responses) (earlier : List Event) : Event → Bool
  | ⟨.callBackend target _ _, reply⟩ =>
      reply.any Prod.snd == responses.accepts target (timesAsked target earlier)
  | ⟨.probe .question _ server _, found⟩ =>
      found == responses.answers server (questionsTo server earlier).length
  | _ => true

/-- All that was heard is what the responses give.  The events stand latest first. -/
def Responses.fit (responses : Responses) : List Event → Bool
  | [] => true
  | event :: earlier => responses.gives earlier event && responses.fit earlier

/-- One of the targets accepts, of the calls that the pool has for it. -/
def Responses.accepting (responses : Responses) (pool : Pool) : Bool :=
  pool.targets.any fun target =>
    (List.range (pool.targets.countP (·.id == target.id))).any (responses.accepts target.id)

private theorem getElem?_append_toList {α : Type} {items : List α} {last : Option α} {index : Nat}
    {item : α} (found : (items ++ last.toList)[index]? = some item) :
    items[index]? = some item ∨ (index = items.length ∧ last = some item) := by
  by_cases before : index < items.length
  · rw [List.getElem?_append_left before] at found
    exact .inl found
  · rw [List.getElem?_append_right (Nat.le_of_not_lt before)] at found
    obtain ⟨inside, same⟩ := List.getElem?_eq_some_iff.mp found
    cases last with
    | none => cases inside
    | some other =>
        rw [Option.toList_some, List.length_singleton] at inside
        simp only [Option.toList_some, List.getElem_singleton] at same
        exact .inr ⟨by omega, congrArg some same⟩

section Calls

variable {target : String} {events : List Event}

theorem replyOf?_callBackend (target called : String) (change : ZoneChange) (zone : Zone)
    (reply : Option (String × Bool)) :
    replyOf? target ⟨.callBackend called change zone, reply⟩ =
      if called = target then some (reply.any Prod.snd) else none := rfl

theorem isAcceptance_callBackend (called : String) (change : ZoneChange) (zone : Zone)
    (reply : Option (String × Bool)) :
    isAcceptance ⟨.callBackend called change zone, reply⟩ = reply.any Prod.snd := by
  cases reply with
  | none => rfl
  | some answer => rfl

theorem length_repliesOf (target : String) (events : List Event) :
    (repliesOf target events).length = timesAsked target events := by
  unfold repliesOf timesAsked
  rw [List.length_reverse, List.length_filterMap_eq_countP]
  apply List.countP_congr
  rintro ⟨effect, reply⟩ _member
  cases effect with
  | callBackend called change zone =>
      rw [replyOf?_callBackend]
      unfold asksTarget
      by_cases same : called = target
      · simp [same]
      · simp [same]
  | _ => exact Iff.rfl

theorem any_isAcceptance_iff :
    events.any isAcceptance = true ↔ ∃ target, true ∈ repliesOf target events := by
  unfold repliesOf
  simp only [List.any_eq_true, List.mem_reverse, List.mem_filterMap]
  constructor
  · intro accepted
    obtain ⟨⟨effect, reply⟩, member, accepts⟩ := accepted
    cases effect with
    | callBackend called change zone =>
        refine ⟨called, _, member, ?_⟩
        rw [replyOf?_callBackend, if_pos rfl, ← isAcceptance_callBackend called change zone reply,
          accepts]
    | _ => cases accepts
  · intro replied
    obtain ⟨target, ⟨effect, reply⟩, member, accepts⟩ := replied
    refine ⟨_, member, ?_⟩
    cases effect with
    | callBackend called change zone =>
        rw [replyOf?_callBackend] at accepts
        by_cases same : called = target
        · rw [if_pos same] at accepts
          rw [isAcceptance_callBackend]
          exact Option.some.inj accepts
        · rw [if_neg same] at accepts
          cases accepts
    | _ => cases accepts

theorem repliesOf_append (target : String) (later earlier : List Event) :
    repliesOf target (later ++ earlier) = repliesOf target earlier ++ repliesOf target later := by
  unfold repliesOf
  rw [List.filterMap_append, List.reverse_append]

theorem repliesOf_cons (target : String) (event : Event) (events : List Event) :
    repliesOf target (event :: events) =
      repliesOf target events ++ (replyOf? target event).toList := by
  unfold repliesOf
  cases replied : replyOf? target event with
  | none => simp [replied]
  | some accepted => simp [replied]

theorem Responses.accepts_of_fit {responses : Responses} (fit : responses.fit events = true)
    {call : Nat} {accepted : Bool} (replied : (repliesOf target events)[call]? = some accepted) :
    accepted = responses.accepts target call := by
  induction events with
  | nil => cases replied
  | cons event earlier ih =>
      unfold Responses.fit at fit
      rw [Bool.and_eq_true] at fit
      rw [repliesOf_cons] at replied
      rcases getElem?_append_toList replied with before | here
      · exact ih fit.2 before
      · obtain ⟨rfl, last⟩ := here
        obtain ⟨effect, reply⟩ := event
        cases effect with
        | callBackend called change zone =>
            rw [replyOf?_callBackend] at last
            by_cases same : called = target
            · subst same
              rw [if_pos rfl] at last
              have given : reply.any Prod.snd =
                  responses.accepts called (timesAsked called earlier) := beq_iff_eq.mp fit.1
              rw [← Option.some.inj last, given, length_repliesOf]
            · rw [if_neg same] at last
              cases last
        | _ => cases last

/-- Where every target is called as often as the pool names it, the responses tell whether one has
accepted. -/
theorem Responses.any_isAcceptance {responses : Responses} {pool : Pool}
    (fit : responses.fit events = true)
    (called : ∀ target, timesAsked target events = pool.targets.countP (·.id == target)) :
    events.any isAcceptance = responses.accepting pool := by
  unfold Responses.accepting
  rw [Bool.eq_iff_iff, any_isAcceptance_iff]
  simp only [List.any_eq_true, List.mem_range, ← called, ← length_repliesOf]
  constructor
  · intro accepted
    obtain ⟨target, replied⟩ := accepted
    obtain ⟨call, inside, same⟩ := List.getElem_of_mem replied
    have named : 0 < pool.targets.countP (·.id == target) := by
      rw [← called, ← length_repliesOf]
      exact Nat.zero_lt_of_lt inside
    obtain ⟨one, listed, found⟩ := List.countP_pos_iff.mp named
    obtain rfl : one.id = target := beq_iff_eq.mp found
    refine ⟨one, listed, call, inside, ?_⟩
    rw [← Responses.accepts_of_fit fit (List.getElem?_eq_getElem inside), same]
  · intro accepts
    obtain ⟨target, -, call, inside, accepted⟩ := accepts
    refine ⟨target.id, ?_⟩
    have replied := Responses.accepts_of_fit fit (List.getElem?_eq_getElem inside)
    rw [← accepted, ← replied]
    exact List.getElem_mem inside

end Calls

/-! ### Polls by the responses -/

/-- The poll of a nameserver that answers so ends with its answer that confirms the change. -/
def Confirms (zone : Zone) (budget : Nat) (answers : Nat → Probe) : Prop :=
  ∃ last, IsLeast {index | Settles zone.action zone.serial budget answers index} last ∧
    Converged zone.action zone.serial (answers last)

instance (action : ZoneAction) (expected : UInt32) (found : Probe) :
    Decidable (Converged action expected found) :=
  decidable_of_iff _ Finding.arrived_iff

instance (action : ZoneAction) (expected : UInt32) (found : Probe) :
    Decidable (Failed action expected found) :=
  decidable_of_iff _ Finding.failed_iff

instance (action : ZoneAction) (expected : UInt32) (budget : Nat) (answers : Nat → Probe)
    (index : Nat) : Decidable (Settles action expected budget answers index) :=
  inferInstanceAs (Decidable (_ ∨ _ ∨ _))

section Confirmation

variable {zone : Zone} {budget : Nat} {answers : Nat → Probe}

theorem settles_budget (action : ZoneAction) (expected : UInt32) (budget : Nat)
    (answers : Nat → Probe) : Settles action expected budget answers budget := by
  right
  right
  have used : ∑ _asked ∈ Finset.range (budget + 1), 1 ≤
      ∑ asked ∈ Finset.range (budget + 1), max 1 (answers asked).attempts :=
    Finset.sum_le_sum fun asked _inside => Nat.le_max_left 1 (answers asked).attempts
  rw [Finset.sum_const, Finset.card_range, smul_eq_mul, Nat.mul_one] at used
  exact (Nat.le_succ budget).trans used

theorem confirms_iff : Confirms zone budget answers ↔ ∃ last < budget + 1,
    (Settles zone.action zone.serial budget answers last ∧
      ∀ earlier < last, ¬ Settles zone.action zone.serial budget answers earlier) ∧
        Converged zone.action zone.serial (answers last) := by
  constructor
  · intro confirms
    obtain ⟨last, ⟨settles, least⟩, converged⟩ := confirms
    have bounded : last ≤ budget := least (settles_budget _ _ _ _)
    refine ⟨last, Nat.lt_succ_of_le bounded, ⟨settles, ?_⟩, converged⟩
    intro earlier before settled
    exact absurd (least settled) (Nat.not_le_of_lt before)
  · intro bounded
    obtain ⟨last, -, ⟨settles, none⟩, converged⟩ := bounded
    refine ⟨last, ⟨settles, ?_⟩, converged⟩
    intro other settled
    by_contra less
    exact none other (Nat.lt_of_not_le less) settled

instance : Decidable (Confirms zone budget answers) :=
  decidable_of_iff _ confirms_iff.symm

theorem Inquiry.confirms_iff {server : Nameserver} {options : ProbeOptions} {asked : List Asked}
    {result : Status × Option UInt32} (inquiry : Inquiry zone server options budget asked result)
    (given : ∀ (index : Nat) (inside : index < asked.length), asked[index].found = answers index) :
    Confirms zone budget answers ↔ result.1 = .success := by
  obtain ⟨last, -, rfl, least⟩ := inquiry.settles answers given
  have success : (resultOf zone (answers last)).1 = .success ↔
      Converged zone.action zone.serial (answers last) := by
    rw [← Finding.arrived_iff]
    unfold resultOf
    split
    · next arrived => simp [arrived]
    · next missed => simp [missed]
  rw [success]
  constructor
  · intro confirms
    obtain ⟨other, otherLeast, converged⟩ := confirms
    rwa [least.unique otherLeast]
  · intro converged
    exact ⟨last, least, converged⟩

theorem Inquiry.each {server : Nameserver} {options : ProbeOptions} {asked : List Asked}
    {result : Status × Option UInt32} (inquiry : Inquiry zone server options budget asked result) :
    ∀ one ∈ asked, one.zone = zone.name ∧ one.server = server := by
  induction inquiry with
  | last _closes =>
      intro one member
      rw [List.mem_singleton.mp member]
      exact ⟨rfl, rfl⟩
  | again _undecided _remains _rest ih =>
      intro one member
      rcases List.mem_cons.mp member with rfl | later
      · exact ⟨rfl, rfl⟩
      · exact ih one later

theorem Inquiry.success_iff {server : Nameserver} {options : ProbeOptions} {asked : List Asked}
    {result : Status × Option UInt32} (inquiry : Inquiry zone server options budget asked result) :
    result.1 = .success ↔
      ∃ one ∈ asked, Finding.ofProbe zone.action zone.serial one.found = .arrived := by
  induction inquiry with
  | last _closes =>
      unfold resultOf
      split
      · next arrived => simp [arrived]
      · next missed => simp [missed]
  | again undecided _remains _rest ih =>
      rw [ih]
      simp [undecided]

theorem questionsTo_append (server : Nameserver) (later earlier : List Event) :
    questionsTo server (later ++ earlier) =
      questionsTo server earlier ++ questionsTo server later := by
  unfold questionsTo
  rw [questions_append, List.filter_append]

theorem questionsTo_eq (server : Nameserver) (events : List Event) :
    questionsTo server events = (events.filterMap fun event =>
      (Asked.ofEvent? event).filter (·.server == server)).reverse := by
  unfold questionsTo questions
  rw [List.filter_reverse, List.filter_filterMap]

theorem Inquiry.questionsTo_self {server : Nameserver} {options : ProbeOptions}
    {events : List Event} {result : Status × Option UInt32}
    (inquiry : Inquiry zone server options budget (questions events) result) :
    questionsTo server events = questions events := by
  unfold questionsTo
  rw [List.filter_eq_self]
  intro asked member
  rw [(inquiry.each asked member).2, beq_self_eq_true]

theorem Inquiry.questionsTo_other {server other : Nameserver} {options : ProbeOptions}
    {events : List Event} {result : Status × Option UInt32}
    (inquiry : Inquiry zone server options budget (questions events) result)
    (different : server ≠ other) : questionsTo other events = [] := by
  unfold questionsTo
  rw [List.filter_eq_nil_iff]
  intro asked member
  rw [(inquiry.each asked member).2, beq_iff_eq]
  exact different

theorem any_isArrival_iff {server : Nameserver} {events : List Event} :
    events.any (isArrival zone server) = true ↔ ∃ asked ∈ questionsTo server events,
      asked.zone = zone.name ∧
        Finding.ofProbe zone.action zone.serial asked.found = .arrived := by
  unfold questionsTo questions
  simp only [List.any_eq_true, List.mem_filter, List.mem_reverse, List.mem_filterMap, beq_iff_eq]
  constructor
  · intro arrived
    obtain ⟨⟨effect, reply⟩, member, arrives⟩ := arrived
    cases effect with
    | probe kind name asked options =>
        cases kind with
        | question =>
            simp only [isArrival, Bool.and_eq_true, beq_iff_eq] at arrives
            obtain ⟨⟨rfl, rfl⟩, found⟩ := arrives
            exact ⟨_, ⟨⟨_, member, rfl⟩, rfl⟩, rfl, found⟩
        | announcement => cases arrives
    | _ => cases arrives
  · intro answered
    obtain ⟨asked, ⟨⟨⟨effect, reply⟩, member, isAsked⟩, here⟩, named, found⟩ := answered
    refine ⟨_, member, ?_⟩
    cases effect with
    | probe kind name other options =>
        cases kind with
        | question =>
            cases isAsked
            simp only [isArrival, Bool.and_eq_true, beq_iff_eq]
            exact ⟨⟨named, here⟩, found⟩
        | announcement => cases isAsked
    | _ => cases isAsked

theorem questionsTo_cons (server : Nameserver) (event : Event) (events : List Event) :
    questionsTo server (event :: events) = questionsTo server events ++
      ((Asked.ofEvent? event).filter (·.server == server)).toList := by
  unfold questionsTo
  rw [questions_cons, List.filter_append]
  cases Asked.ofEvent? event with
  | none => rfl
  | some asked =>
      congr 1
      rw [Option.toList_some, List.filter_singleton, Option.filter_some]
      cases asked.server == server with
      | true => rfl
      | false => rfl

theorem Responses.answers_of_fit {responses : Responses} {server : Nameserver}
    {events : List Event} (fit : responses.fit events = true) {index : Nat} {asked : Asked}
    (answered : (questionsTo server events)[index]? = some asked) :
    asked.found = responses.answers server index := by
  induction events with
  | nil => cases answered
  | cons event earlier ih =>
      unfold Responses.fit at fit
      rw [Bool.and_eq_true] at fit
      rw [questionsTo_cons] at answered
      rcases getElem?_append_toList answered with before | here
      · exact ih fit.2 before
      · obtain ⟨rfl, last⟩ := here
        obtain ⟨isAsked, same⟩ := Option.filter_eq_some_iff.mp last
        obtain rfl := beq_iff_eq.mp same
        obtain ⟨effect, reply⟩ := event
        cases effect with
        | probe kind name other options =>
            cases kind with
            | question =>
                cases isAsked
                exact beq_iff_eq.mp fit.1
            | announcement => cases isAsked
        | _ => cases isAsked

/-- Where a nameserver is asked the questions of one poll, its responses tell whether it has
confirmed the change. -/
theorem Responses.any_isArrival {responses : Responses} {server : Nameserver}
    {options : ProbeOptions} {events : List Event} {result : Status × Option UInt32}
    (fit : responses.fit events = true)
    (inquiry : Inquiry zone server options budget (questionsTo server events) result) :
    events.any (isArrival zone server) =
      Decidable.decide (Confirms zone budget (responses.answers server)) := by
  rw [Bool.eq_iff_iff, decide_eq_true_iff, any_isArrival_iff, inquiry.confirms_iff]
  · rw [inquiry.success_iff]
    constructor
    · intro answered
      obtain ⟨asked, member, -, found⟩ := answered
      exact ⟨asked, member, found⟩
    · intro answered
      obtain ⟨asked, member, found⟩ := answered
      exact ⟨asked, member, (inquiry.each asked member).1, found⟩
  · intro index inside
    exact Responses.answers_of_fit fit (List.getElem?_eq_getElem inside)

end Confirmation

/-! ### Responses that were heard -/

/-- The responses that were heard, and none after them. -/
def Responses.heard (events : List Event) : Responses where
  accepts target call := (repliesOf target events)[call]?.getD false
  answers server question := ((questionsTo server events)[question]?.map Asked.found).getD default

theorem Responses.gives_heard (later : List Event) (event : Event) (earlier : List Event) :
    (heard (later ++ event :: earlier)).gives earlier event = true := by
  obtain ⟨effect, reply⟩ := event
  cases effect with
  | callBackend target change zone =>
      have given : (repliesOf target (later ++ ⟨.callBackend target change zone, reply⟩ :: earlier))[
          timesAsked target earlier]? = some (reply.any Prod.snd) := by
        rw [repliesOf_append, repliesOf_cons, replyOf?_callBackend, if_pos rfl,
          ← length_repliesOf]
        simp
      unfold gives heard
      dsimp only
      rw [given]
      exact beq_self_eq_true _
  | probe kind zone server options =>
      cases kind with
      | question =>
          have given : ((questionsTo server
              (later ++ ⟨.probe .question zone server options, reply⟩ :: earlier))[
                (questionsTo server earlier).length]?).map Asked.found = some reply := by
            rw [List.append_cons, questionsTo_append, questionsTo_append]
            simp [questionsTo, questions_single, Asked.ofEvent?]
          unfold gives heard
          dsimp only
          rw [given]
          exact beq_self_eq_true _
      | announcement => rfl
  | _ => rfl

/-- Whatever was heard, some responses give it. -/
theorem Responses.fit_heard (events : List Event) : (heard events).fit events = true := by
  suffices fits : ∀ later earlier, later ++ earlier = events →
      (heard events).fit earlier = true from fits [] events rfl
  intro later earlier
  induction earlier generalizing later with
  | nil => exact fun _ => rfl
  | cons event earlier ih =>
      intro whole
      unfold fit
      rw [Bool.and_eq_true]
      constructor
      · rw [← whole]
        exact gives_heard later event earlier
      · apply ih (later ++ [event])
        rw [List.append_assoc]
        exact whole

/-! ### What an attempt asks -/

def consults : Effect → Bool
  | .callBackend _ _ _ | .probe .question _ _ _ => true
  | _ => false

section Silence

variable {events : List Event}

theorem questionsTo_silent (silent : ∀ event ∈ events, consults event.effect = false)
    (server : Nameserver) : questionsTo server events = [] := by
  have none : events.filterMap Asked.ofEvent? = [] := by
    rw [List.filterMap_eq_nil_iff]
    intro event member
    have unasked := silent event member
    obtain ⟨effect, reply⟩ := event
    cases effect with
    | probe kind _ _ _ =>
        cases kind with
        | question => cases unasked
        | announcement => rfl
    | _ => rfl
  unfold questionsTo questions
  rw [none]
  rfl

theorem timesAsked_silent (silent : ∀ event ∈ events, consults event.effect = false)
    (target : String) : timesAsked target events = 0 := by
  apply timesAsked_eq_zero
  intro event member
  have uncalled := silent event member
  obtain ⟨effect, reply⟩ := event
  cases effect with
  | callBackend _ _ _ => cases uncalled
  | _ => rfl

end Silence

abbrev Silent {α : Type} (manager : Manager) (program : Program α) : Prop :=
  Throughout manager (consults · = false) program

theorem unasked_of_silent {α : Type} {manager : Manager} {program : Program α}
    {events : List Event} {value : α} (performs : Performs manager program events value)
    (silent : Silent manager program) (server : Nameserver) : questionsTo server events = [] :=
  questionsTo_silent (performs.kind silent) server

section Attempt

variable {manager : Manager} {pool : Pool} {zone : Zone} {events : List Event}

theorem Concludes.silent {α : Type} {program : Program α} (concludes : Concludes zone program) :
    Silent manager program := by
  apply Only.weaken concludes
  intro effect concluding
  cases effect with
  | callBackend _ _ _ | probe _ _ _ _ | fork _ _ | detach _ => cases concluding
  | _ => exact ⟨rfl, fun _ handed => nomatch handed⟩

theorem storeRows_silent (key : ActionKey) (servers : List Nameserver) (status : Status) :
    Silent manager (servers.forM fun server => storeRow key server status none).run :=
  .triesForM fun _server _member => .perform ⟨rfl, fun _ handed => nomatch handed⟩

theorem giveUp_silent : Silent manager (giveUp manager.policy pool zone).run := by
  unfold giveUp
  apply Only.tries (storeRows_silent zone.key pool.nameservers .error)
  intro _stored
  exact conclude_concludes.silent.tries fun _ => .pure _

theorem lockedDecide_silent :
    Silent manager (locked zone.key (decide manager.policy pool zone).run) := by
  apply locked_only ?_ decide_concludes.silent
  intro effect turning
  cases effect with
  | enter _ | acquire _ | release _ | retire _ _ | leave _ =>
      exact ⟨rfl, fun _ handed => nomatch handed⟩
  | _ => cases turning

theorem announceToOthers_silent : Silent manager (announceToOthers pool zone) := by
  unfold announceToOthers
  split
  · exact .pure _
  · apply Only.bind (Throughout.sideBySide (fun _ => rfl) ?_) fun _ => .pure _
    intro operation member
    obtain ⟨server, -, rfl⟩ := List.mem_map.mp member
    have probed : ∀ options,
        Only (consults · = false) (probe .announcement zone server options) := fun options => by
      have told : Only (consults · = false)
          (perform (.probe .announcement zone.name server options)) := .perform rfl
      apply told.bind
      intro found
      have measured : Only (consults · = false)
          (measure (.probe .announcement found.outcome.label)) := .perform rfl
      exact measured.bind fun _ => .pure _
    have discarded : Only (consults · = false) (discard (probe .announcement zone server
        { manager.policy.probe with maxRetries := 1 })) :=
      (probed _).bind fun _ => .pure _
    exact discarded.bind fun _ => .pure _

theorem dispatch_calls {accepted : Nat}
    (performs : Performs manager (dispatch pool zone) events accepted) :
    (∀ target, timesAsked target events = pool.targets.countP (·.id == target)) ∧
      ∀ server, questionsTo server events = [] := by
  unfold dispatch at performs
  obtain ⟨round, results, last, called, done, rfl⟩ := performs.bind
  obtain ⟨rfl, -⟩ := done.of_pure
  obtain ⟨inner, ⟨shares, work, -, traces, permuted, -⟩, rfl⟩ := called.sideBySide
  have does : ∀ share ∈ shares, Does (subject manager share.operation) share.events := by
    intro share inside
    have listed : share.operation ∈ shares.map Share.operation := List.mem_map_of_mem inside
    rw [work] at listed
    obtain ⟨target, -, same⟩ := List.mem_map.mp listed
    have traced := traces share inside
    rw [← same] at traced ⊢
    exact (change_does manager target.id zone).shown _ _ traced
  constructor
  · intro target
    have counted : timesAsked target inner = pool.targets.countP (·.id == target) := by
      unfold timesAsked
      rw [countP_shares permuted does fun _ => rfl, work, List.countP_map]
      rfl
    rw [← counted]
    exact List.countP_cons_of_neg (by simp [asksTarget])
  · intro server
    have unasked : inner.filterMap Asked.ofEvent? = [] := by
      rw [List.filterMap_eq_nil_iff]
      intro event member
      obtain ⟨effect, reply⟩ := event
      rcases mem_shares permuted does member with ⟨thing, rfl⟩ | ⟨operation, handed, rfl⟩
      · rfl
      · rw [work] at handed
        obtain ⟨target, -, rfl⟩ := List.mem_map.mp handed
        rfl
    unfold questionsTo questions
    rw [List.nil_append, List.filterMap_cons_none rfl, unasked]
    rfl

theorem verify_inquires (server : Nameserver) :
    Yields (fun events _ => ∃ result, Inquiry zone server manager.policy.probe
        manager.policy.probe.budget (questions events) result)
      (manager.program (.verify zone server)) := by
  have verified : Yields (fun events result => Inquiry zone server manager.policy.probe
      manager.policy.probe.budget (questions events) result)
      (verifyServer manager.policy zone server) := by
    unfold verifyServer
    apply Yields.bind (measure_yields _)
    intro started reply measured
    apply Yields.bind (poll_inquires manager.policy zone server)
    intro asked result inquiry
    apply Yields.bind (measure_yields _)
    intro finished again last
    subst measured last
    apply Yields.pure
    simpa [questions_cons, questions_append, questions_nil, Asked.ofEvent?] using inquiry
  apply Yields.bind verified
  intro asked result inquiry
  apply Yields.bind (@Yields.perform (.storeRow zone.key server result.1 result.2) rfl)
  intro stored reply written
  subst written
  refine Yields.pure ⟨result, ?_⟩
  simpa [questions_cons, Asked.ofEvent?] using inquiry

theorem verify_calls_none (target : String) :
    Throughout manager (asksTarget target · = false) (verify manager.policy pool zone).run := by
  apply Only.weaken verify_verifies
  intro effect verifying
  refine ⟨verifying.asksTarget_eq target, ?_⟩
  intro operation handed
  exact (handedOut_verifies verifying operation handed).weaken fun _ inner =>
    inner.asksTarget_eq target

theorem filterMap_share {α : Type} {read : Event → Option α} {before behind : List Share}
    {share : Share}
    (permuted : events.Perm ((before ++ share :: behind).flatMap Share.events))
    (within : share.events.Sublist events)
    (aside : ∀ other ∈ before ++ behind, other.events.filterMap read = []) :
    events.filterMap read = share.events.filterMap read := by
  have none : ∀ some : List Share, (∀ other ∈ some, other.events.filterMap read = []) →
      (some.flatMap Share.events).filterMap read = [] := by
    intro some each
    rw [List.filterMap_flatMap, List.flatMap_eq_nil_iff]
    exact each
  have gathered := permuted.filterMap read
  rw [List.flatMap_append, List.flatMap_cons, List.filterMap_append, List.filterMap_append,
    none before fun other member => aside other (by simp [member]),
    none behind fun other member => aside other (by simp [member]), List.nil_append,
    List.append_nil] at gathered
  exact ((within.filterMap read).eq_of_length gathered.length_eq.symm).symm

theorem round_inquires {results : List Result} (distinct : pool.nameservers.Nodup)
    (performs : Performs manager (sideBySide (pool.nameservers.map (.verify zone))) events results)
    {server : Nameserver} (listed : server ∈ pool.nameservers) :
    ∃ result, Inquiry zone server manager.policy.probe manager.policy.probe.budget
      (questionsTo server events) result := by
  obtain ⟨inner, ⟨shares, work, -, traces, permuted, within⟩, rfl⟩ := performs.sideBySide
  have asks : ∀ share ∈ shares, ∀ other, share.operation = .verify zone other →
      ∃ result, Inquiry zone other manager.policy.probe manager.policy.probe.budget
        (questions share.events) result := by
    intro share inside other verified
    have traced := traces share inside
    rw [verified] at traced
    exact (verify_inquires other).shown _ _ traced
  obtain ⟨first, last, split⟩ := List.append_of_mem listed
  rw [split, List.map_append, List.map_cons] at work
  obtain ⟨before, rest, rfl, firstWork, restWork⟩ := List.map_eq_append_iff.mp work
  obtain ⟨share, behind, rfl, mine, lastWork⟩ := List.map_eq_cons_iff.mp restWork
  rw [split, List.nodup_append_comm] at distinct
  have fresh : server ∉ last ++ first := (List.nodup_cons.mp distinct).1
  have aside : ∀ other ∈ before ++ behind, questionsTo server other.events = [] := by
    intro other member
    have handed : other.operation ∈ (first ++ last).map (Operation.verify zone) := by
      rw [List.map_append, ← firstWork, ← lastWork, ← List.map_append]
      exact List.mem_map_of_mem member
    obtain ⟨elsewhere, among, same⟩ := List.mem_map.mp handed
    have inside : other ∈ before ++ share :: behind := by
      simp only [List.mem_append, List.mem_cons] at member ⊢
      exact member.imp_right .inr
    obtain ⟨result, inquiry⟩ := asks other inside elsewhere same.symm
    apply inquiry.questionsTo_other
    rintro rfl
    exact fresh (by simpa [or_comm] using among)
  have inside : share ∈ before ++ share :: behind := by simp
  obtain ⟨result, inquiry⟩ := asks share inside server mine
  refine ⟨result, ?_⟩
  have own : questionsTo server inner = questionsTo server share.events := by
    rw [questionsTo_eq, questionsTo_eq, filterMap_share permuted (within share inside)]
    intro other member
    rw [← List.reverse_eq_nil_iff, ← questionsTo_eq]
    exact aside other member
  rw [questionsTo_eq, List.filterMap_cons_none rfl, ← questionsTo_eq, own,
    inquiry.questionsTo_self]
  exact inquiry

theorem verify_asks {progress : Progress} (inline : manager.policy.detached = false)
    (distinct : pool.nameservers.Nodup)
    (performs : Performs manager (verify manager.policy pool zone).run events (.ok progress))
    {server : Nameserver} (listed : server ∈ pool.nameservers) :
    ∃ result, Inquiry zone server manager.policy.probe manager.policy.probe.budget
      (questionsTo server events) result := by
  unfold verify at performs
  obtain ⟨pending, _, afterRows, stored, verifies, rfl⟩ := performs.tries
  rw [inline, Bool.false_and, if_neg Bool.false_ne_true] at verifies
  obtain ⟨round, results, afterRound, verified, checks, rfl⟩ := verifies.tries
  obtain ⟨checking, _, afterChecks, checked, decides, rfl⟩ := checks.tries
  obtain ⟨decision, verdict, afterDecision, decided, ends, rfl⟩ := decides.tries
  have unstored : questionsTo server pending = [] :=
    unasked_of_silent stored (storeRows_silent _ _ _) server
  have unchecked : questionsTo server checking = [] := by
    apply unasked_of_silent checked
    apply Only.triesForIn
    intro result _member
    split
    · exact .pure _
    · exact .pure _
  have undecided : questionsTo server decision = [] :=
    unasked_of_silent decided lockedDecide_silent server
  have ended : questionsTo server afterDecision = [] := by
    cases verdict with
    | pending _ _ _ => exact unasked_of_silent ends (.pure _) server
    | success _ => exact unasked_of_silent ends (.pure _) server
    | error _ => exact unasked_of_silent ends (.pure _) server
  rw [questionsTo_append, questionsTo_append, questionsTo_append, questionsTo_append, unstored,
    unchecked, undecided, ended, List.nil_append, List.append_nil, List.append_nil,
    List.append_nil]
  exact round_inquires distinct verified.lift listed

/-- An attempt that comes to an end has called every target as often as the pool names it, and
unless it has given up it has asked every nameserver the questions of one poll. -/
theorem propagate_asks {action : ZoneAction} {progress : Progress}
    (known : manager.topology.get? zone.poolId = some pool)
    (inline : manager.policy.detached = false) (distinct : pool.nameservers.Nodup)
    (performs : Performs manager (manager.propagate zone action).run events (.ok progress)) :
    (∀ target, timesAsked target events = pool.targets.countP (·.id == target)) ∧
      (progress = .backendsFailed ∨ ∀ server ∈ pool.nameservers, ∃ result,
        Inquiry { zone with action } server manager.policy.probe manager.policy.probe.budget
          (questionsTo server events) result) := by
  have looked : manager.pool zone = pure pool := by
    unfold Manager.pool Topology.get
    rw [known]
    rfl
  unfold Manager.propagate at performs
  rw [looked, pure_bind] at performs
  obtain ⟨clearing, _, afterClearing, cleared, dispatches, rfl⟩ := performs.tries
  obtain ⟨calling, accepted, afterCalls, called, goesOn, rfl⟩ := dispatches.tries
  have clears : Silent manager (clearRows ⟨zone.id, action⟩).run :=
    .perform ⟨rfl, fun _ handed => nomatch handed⟩
  have unasked := cleared.kind clears
  obtain ⟨calls, asksNone⟩ := dispatch_calls called.lift
  simp only [timesAsked_append, questionsTo_append, calls, asksNone, timesAsked_silent unasked,
    questionsTo_silent unasked, List.nil_append, Nat.add_zero]
  by_cases refused : (accepted = 0 && !pool.targets.isEmpty) = true
  · rw [if_pos refused] at goesOn
    have closing := goesOn.kind giveUp_silent
    unfold giveUp at goesOn
    obtain ⟨storing, _, afterRows, -, concludes, -⟩ := goesOn.tries
    obtain ⟨concluding, _, ending, -, ends, -⟩ := concludes.tries
    cases ends
    refine ⟨?_, .inl rfl⟩
    intro target
    rw [timesAsked_silent closing, Nat.zero_add]
  · rw [if_neg refused] at goesOn
    obtain ⟨announcing, _, afterNotices, announced, verifies, rfl⟩ := goesOn.tries
    have told := announced.lift.kind announceToOthers_silent
    constructor
    · intro target
      have uncalled : timesAsked target afterNotices = 0 := by
        apply timesAsked_eq_zero
        exact verifies.kind (verify_calls_none target)
      rw [timesAsked_append, uncalled, timesAsked_silent told, Nat.zero_add]
    · right
      intro server listed
      rw [questionsTo_append, questionsTo_silent told, List.nil_append]
      exact verify_asks inline distinct verifies listed

end Attempt

end ZonePropagation.Propagation
