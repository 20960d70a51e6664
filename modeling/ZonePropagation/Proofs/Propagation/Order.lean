import ZonePropagation.Proofs.Propagation.Locking
import ZonePropagation.Proofs.Propagation.Polling
/-!
The order in which an attempt performs its effects.

An attempt asks the targets of a pool.  If one accepted, or there is none, it tells other servers of
the change, writes the pending rows of the pool's nameservers, and verifies these.  Meanwhile others
may do anything but bring or take away drivers.
-/

namespace ZonePropagation.Propagation

open Interleaving

/-- A target is asked for a change, whether it has a driver or not. -/
def asksTarget (target : String) : Effect → Bool
  | .callBackend other _ _ => other == target
  | _ => false

def calls (target : String) : Event → Bool
  | ⟨.callBackend other _ _, some _⟩ => other == target
  | _ => false

def isWire : Effect → Bool
  | .probe _ _ _ _ => true
  | _ => false

def announcesTo (server : Nameserver) : Effect → Bool
  | .probe .announcement _ other _ => other == server
  | _ => false

def verifies (server : Nameserver) : Effect → Bool
  | .probe .question _ other _ | .storeRow _ other _ _ => other == server
  | _ => false

def timesAsked (target : String) (past : List Event) : Nat :=
  past.countP fun event => asksTarget target event.effect

def timesTold (server : Nameserver) (past : List Event) : Nat :=
  past.countP fun event => announcesTo server event.effect

/-- An attempt goes on to verification when a target accepted, or there is none. -/
def GoesOn (pool : Pool) (past : List Event) : Prop :=
  pool.targets = [] ∨ past.any isAcceptance = true

def Due (pool : Pool) (zone : Zone) (past : List Event) : Effect → Prop
  | .callBackend target change copy =>
      change = zone.action.change ∧ copy = zone ∧
        timesAsked target past < pool.targets.countP (·.id == target) ∧
          ∀ event ∈ past, isWire event.effect = false
  | .probe .announcement _ server _ =>
      GoesOn pool past ∧ zone.action ≠ .delete ∧
        (server ∈ pool.nameservers ∨ timesTold server past < pool.alsoNotifies.count server)
  | .probe .question _ server _ =>
      GoesOn pool past ∧ server ∈ pool.nameservers ∧
        ∀ member ∈ pool.nameservers,
          (⟨.storeRow zone.key member .pending none, .ok ()⟩ : Event) ∈ past
  | .storeRow _ server _ _ => server ∈ pool.nameservers
  | _ => True

def order (pool : Pool) (zone : Zone) : Law where
  allows := Due pool zone
  permits := fun _ => True

/-- The servers that are only told of the change have each been told as often as the pool names
them, and not at all of a deletion, before any server is verified.  After that only nameservers of
the pool are told. -/
def ToldOnce (pool : Pool) (zone : Zone) (past : List Event) : Prop :=
  ∃ verification preparation, past = verification ++ preparation ∧
    (∀ server, timesTold server preparation =
      if zone.action = .delete then 0 else pool.alsoNotifies.count server) ∧
    (∀ event ∈ preparation, ∀ server, verifies server event.effect = false) ∧
    ∀ event ∈ verification, ∀ server, announcesTo server event.effect = true →
      server ∈ pool.nameservers

def HasVerified (past : List Event) : Prop :=
  ∃ event ∈ past, ∃ server, verifies server event.effect = true

/-- The call of an attempt has returned, or come to the rows of the nameservers. -/
def IsPrepared (world : World) : Prop :=
  (∃ result, world.strands.head? = some (.running (.done result))) ∨ HasVerified world.now.past

/-- Where an attempt on a zone stands.  An attempt whose rows cannot be cleared ends at once. -/
structure InSequence (pool : Pool) (zone : Zone) (drivers : String → Bool) (world : World) :
    Prop where
  due : (order pool zone).Obeyed world.now.past
  asked : ∀ target, timesAsked target world.now.past ≤ pool.targets.countP (·.id == target)
  prepared : IsPrepared world →
    (∃ fault, world.now.past = [⟨.clearRows zone.key, .error fault⟩]) ∨
      (∀ target, world.now.past.countP (calls target) =
        if drivers target then pool.targets.countP (·.id == target) else 0) ∧
      (GoesOn pool world.now.past → ToldOnce pool zone world.now.past)

def keepingDrivers : Others where
  may := fun now later => later.past = now.past ∧
    ∀ target, hasDriver later.surroundings target = hasDriver now.surroundings target
  refl := fun _ => ⟨rfl, fun _ => rfl⟩
  trans := fun first second =>
    ⟨second.1.trans first.1, fun target => (second.2 target).trans (first.2 target)⟩
  past := fun changed => changed.1

section Order

variable {pool : Pool} {zone : Zone} {past : List Event}

theorem GoesOn.later {later : List Event} (goesOn : GoesOn pool past) (more : past <:+ later) :
    GoesOn pool later := by
  apply goesOn.imp_right
  simp only [List.any_eq_true]
  rintro ⟨event, member, accepted⟩
  exact ⟨event, more.mem member, accepted⟩

theorem timesAsked_append (target : String) (later earlier : List Event) :
    timesAsked target (later ++ earlier) = timesAsked target later + timesAsked target earlier :=
  List.countP_append

theorem timesTold_append (server : Nameserver) (later earlier : List Event) :
    timesTold server (later ++ earlier) = timesTold server later + timesTold server earlier :=
  List.countP_append

theorem timesAsked_eq_zero {target : String}
    (none : ∀ event ∈ past, asksTarget target event.effect = false) :
    timesAsked target past = 0 := by
  unfold timesAsked
  rw [List.countP_eq_zero]
  intro event member asks
  rw [none event member] at asks
  cases asks

theorem timesTold_eq_zero {server : Nameserver}
    (none : ∀ event ∈ past, announcesTo server event.effect = false) :
    timesTold server past = 0 := by
  unfold timesTold
  rw [List.countP_eq_zero]
  intro event member tells
  rw [none event member] at tells
  cases tells

private theorem countP_lt_of_suffix {counts : Event → Bool} {event : Event}
    {between events : List Event} (inside : event :: between <:+ events)
    (counted : counts event = true) : between.countP counts < events.countP counts := by
  have more := inside.sublist.countP_le (p := counts)
  rw [List.countP_cons_of_pos counted] at more
  exact more

theorem timesAsked_le_of_obeyed (obeyed : (order pool zone).Obeyed past) (target : String) :
    timesAsked target past ≤ pool.targets.countP (·.id == target) := by
  induction past with
  | nil => exact Nat.zero_le _
  | cons event past ih =>
      have before := ih fun other earlier inside =>
        obeyed other earlier (inside.trans (List.suffix_cons _ _))
      have here := obeyed event past (List.suffix_refl _)
      unfold timesAsked at before ⊢
      rw [List.countP_cons]
      split
      · next asks =>
          obtain ⟨effect, reply⟩ := event
          cases effect with
          | callBackend other change copy =>
              obtain rfl : other = target := beq_iff_eq.mp asks
              exact here.2.2.1
          | _ => cases asks
      · exact before

end Order

/-! ### The preparation of an attempt -/

def Does (effect : Effect) (events : List Event) : Prop :=
  ∃ reply counted, events = counted ++ [⟨effect, reply⟩] ∧
    ∀ event ∈ counted, ∃ thing reply, event = (⟨.measure thing, reply⟩ : Event)

def subject (manager : Manager) : Operation → Effect
  | .change target zone => .callBackend target zone.action.change zone
  | .announce zone server =>
      .probe .announcement zone.name server { manager.policy.probe with maxRetries := 1 }
  | _ => .now

theorem change_does (manager : Manager) (target : String) (zone : Zone) :
    Yields (fun events _ => Does (.callBackend target zone.action.change zone) events)
      (manager.program (.change target zone)) := by
  have changed : Yields (fun events _ => Does (.callBackend target zone.action.change zone) events)
      (Propagation.change target zone) := by
    unfold Propagation.change
    apply Yields.bind (@Yields.perform (.callBackend target zone.action.change zone) rfl)
    rintro called reply rfl
    cases reply with
    | none => exact Yields.pure ⟨none, [], rfl, by simp⟩
    | some answer =>
        apply Yields.bind (measure_yields _)
        rintro measured counted rfl
        refine Yields.pure ⟨some answer, [⟨.measure _, counted⟩], rfl, ?_⟩
        intro event member
        exact ⟨_, counted, List.mem_singleton.mp member⟩
  apply Yields.bind changed
  rintro events accepted does
  exact Yields.pure does

theorem announce_does (manager : Manager) (zone : Zone) (server : Nameserver) :
    Yields (fun events _ => Does (.probe .announcement zone.name server
        { manager.policy.probe with maxRetries := 1 }) events)
      (manager.program (.announce zone server)) := by
  apply Yields.bind (announcement_yields _)
  rintro earlier _ ⟨found, reply, rfl⟩
  refine Yields.pure ⟨found, [⟨.measure _, reply⟩], rfl, ?_⟩
  intro event member
  exact ⟨_, reply, List.mem_singleton.mp member⟩

section Shares

variable {manager : Manager} {shares : List Share} {events : List Event} {counts : Effect → Bool}

theorem Does.countP {effect : Effect} (does : Does effect events)
    (uncounted : ∀ thing, counts (.measure thing) = false) :
    events.countP (fun event => counts event.effect) = if counts effect then 1 else 0 := by
  obtain ⟨reply, counted, rfl, measures⟩ := does
  have none : counted.countP (fun event => counts event.effect) = 0 := by
    rw [List.countP_eq_zero]
    intro event member
    obtain ⟨thing, reply, rfl⟩ := measures event member
    simp [uncounted]
  rw [List.countP_append, none, Nat.zero_add, List.countP_singleton]

theorem countP_shares (permuted : events.Perm (shares.flatMap Share.events))
    (does : ∀ share ∈ shares, Does (subject manager share.operation) share.events)
    (uncounted : ∀ thing, counts (.measure thing) = false) :
    events.countP (fun event => counts event.effect) =
      (shares.map Share.operation).countP fun operation => counts (subject manager operation) := by
  rw [permuted.countP_eq]
  clear permuted
  induction shares with
  | nil => rfl
  | cons share shares ih =>
      have rest := ih fun other member => does other (by simp [member])
      rw [List.flatMap_cons, List.countP_append, rest, (does share (by simp)).countP uncounted,
        List.map_cons, List.countP_cons, Nat.add_comm]

theorem mem_shares (permuted : events.Perm (shares.flatMap Share.events))
    (does : ∀ share ∈ shares, Does (subject manager share.operation) share.events) {event : Event}
    (member : event ∈ events) :
    (∃ thing, event.effect = .measure thing) ∨
      ∃ operation ∈ shares.map Share.operation, event.effect = subject manager operation := by
  obtain ⟨share, inside, performed⟩ := List.mem_flatMap.mp (permuted.mem_iff.mp member)
  obtain ⟨reply, counted, same, measures⟩ := does share inside
  rw [same] at performed
  rcases List.mem_append.mp performed with measured | last
  · obtain ⟨thing, reply, rfl⟩ := measures event measured
    exact .inl ⟨thing, rfl⟩
  · right
    rw [List.mem_singleton.mp last]
    exact ⟨share.operation, List.mem_map_of_mem inside, rfl⟩

end Shares

structure Dispatched (pool : Pool) (zone : Zone) (accepted : Nat) (past : List Event) : Prop where
  obeyed : (order pool zone).Obeyed past
  asked : ∀ target, timesAsked target past = pool.targets.countP (·.id == target)
  offline : ∀ event ∈ past,
    isWire event.effect = false ∧ ∀ server, verifies server event.effect = false
  accepted : past.any isAcceptance = (accepted != 0)

/-- All that comes before the rows of the nameservers has been performed. -/
structure Prepared (pool : Pool) (zone : Zone) (past : List Event) : Prop where
  obeyed : (order pool zone).Obeyed past
  asked : ∀ target, timesAsked target past = pool.targets.countP (·.id == target)
  goesOn : GoesOn pool past
  told : ∀ server, timesTold server past =
    if zone.action = .delete then 0 else pool.alsoNotifies.count server
  unverified : ∀ event ∈ past, ∀ server, verifies server event.effect = false

section Preparation

variable {manager : Manager} {others : Others} {pool : Pool} {zone : Zone} {now : Situation}

private theorem Dispatched.of_shares {past : List Event} {shares : List Share}
    {events : List Event} {results : List Result} {width : Nat}
    (begun : past = [⟨.clearRows zone.key, .ok ()⟩])
    (work : shares.map Share.operation =
      pool.targets.map fun target => Operation.change target.id zone)
    (does : ∀ share ∈ shares, Does (subject manager share.operation) share.events)
    (told : ∀ share ∈ shares, share.events.any isAcceptance = share.result.isSuccess)
    (permuted : events.Perm (shares.flatMap Share.events)) :
    Dispatched pool zone ((shares.map Share.result).countP Result.isSuccess)
      (⟨.fork width (shares.map Share.operation), results⟩ :: (events ++ past)) := by
  have count : ∀ target, timesAsked target events = pool.targets.countP (·.id == target) := by
    intro target
    unfold timesAsked
    rw [countP_shares permuted does fun _ => rfl, work, List.countP_map]
    rfl
  have each : ∀ event ∈ events, (∃ thing, event.effect = .measure thing) ∨
      ∃ target, event.effect = .callBackend target zone.action.change zone := by
    intro event member
    rcases mem_shares permuted does member with measured | ⟨operation, handed, same⟩
    · exact .inl measured
    · rw [work] at handed
      obtain ⟨target, -, rfl⟩ := List.mem_map.mp handed
      exact .inr ⟨target.id, same⟩
  subst begun
  have offline : ∀ event ∈ events ++ [(⟨.clearRows zone.key, .ok ()⟩ : Event)],
      isWire event.effect = false ∧ ∀ server, verifies server event.effect = false := by
    intro event member
    rcases List.mem_append.mp member with asked | cleared
    · rcases each event asked with ⟨thing, same⟩ | ⟨target, same⟩
      · rw [same]
        exact ⟨rfl, fun _ => rfl⟩
      · rw [same]
        exact ⟨rfl, fun _ => rfl⟩
    · rw [List.mem_singleton.mp cleared]
      exact ⟨rfl, fun _ => rfl⟩
  refine ⟨.cons (.append ?_ ?_) trivial, ?_, ?_, ?_⟩
  · exact .cons (fun _ _ inside => nomatch List.suffix_nil.mp inside) trivial
  · intro event between inside
    rcases each event (inside.mem (by simp)) with ⟨thing, same⟩ | ⟨target, same⟩
    · rw [same]
      trivial
    · rw [same]
      refine ⟨rfl, rfl, ?_, ?_⟩
      · rw [← count, timesAsked_append]
        exact countP_lt_of_suffix inside (by simp [same, asksTarget])
      · intro other member
        apply (offline other _).1
        rcases List.mem_append.mp member with earlier | cleared
        · exact List.mem_append_left _ (inside.mem (by simp [earlier]))
        · exact List.mem_append_right _ cleared
  · intro target
    rw [← count, ← Nat.add_zero (timesAsked target events)]
    exact timesAsked_append target events _
  · intro event member
    rcases List.mem_cons.mp member with rfl | earlier
    · exact ⟨rfl, fun _ => rfl⟩
    · exact offline event earlier
  · rw [List.any_cons, List.any_append, any_isAcceptance_of_shares permuted told]
    simp [isAcceptance]

theorem dispatch_along (begun : now.past = [⟨.clearRows zone.key, .ok ()⟩]) :
    (amid manager anytime others).Along (fun later accepted =>
      Dispatched pool zone accepted later.past) (dispatch pool zone) now := by
  have asked : (amid manager anytime others).Along (fun later results =>
      Dispatched pool zone (results.countP Result.isSuccess) later.past)
      (sideBySide (pool.targets.map fun target => .change target.id zone)) now := by
    apply amid_forks fun operation events result =>
      Does (subject manager operation) events ∧ events.any isAcceptance = result.isSuccess
    · intro operation member
      obtain ⟨target, -, rfl⟩ := List.mem_map.mp member
      exact ((change_does manager target.id zone).and
        (change_yields manager target.id zone)).weaken fun _ _ met => ⟨met.1, met.2.2⟩
    · intro shares events later work shown permuted past
      rw [past, ← work]
      exact .of_shares begun work (fun share inside => (shown share inside).1)
        (fun share inside => (shown share inside).2) permuted
  apply Conduct.Along.bind asked
  intro later results met
  apply Conduct.Along.pure
  intro last changed
  rw [others.past changed]
  exact met

private theorem Dispatched.untold {past : List Event} {accepted : Nat}
    (dispatched : Dispatched pool zone accepted past) (server : Nameserver) :
    timesTold server past = 0 := by
  apply timesTold_eq_zero
  intro event member
  have offline := (dispatched.offline event member).1
  obtain ⟨effect, reply⟩ := event
  cases effect with
  | probe _ _ _ _ => cases offline
  | _ => rfl

private theorem Prepared.of_shares {past : List Event} {accepted : Nat} {shares : List Share}
    {events : List Event} {results : List Result} {width : Nat}
    (dispatched : Dispatched pool zone accepted past) (goesOn : GoesOn pool past)
    (serving : zone.action ≠ .delete)
    (work : shares.map Share.operation = pool.alsoNotifies.map (.announce zone))
    (does : ∀ share ∈ shares, Does (subject manager share.operation) share.events)
    (permuted : events.Perm (shares.flatMap Share.events)) :
    Prepared pool zone
      (⟨.fork width (shares.map Share.operation), results⟩ :: (events ++ past)) := by
  have count : ∀ server, timesTold server events = pool.alsoNotifies.count server := by
    intro server
    unfold timesTold
    rw [countP_shares permuted does fun _ => rfl, work, List.countP_map]
    rfl
  have each : ∀ event ∈ events, (∃ thing, event.effect = .measure thing) ∨
      ∃ server options, event.effect = .probe .announcement zone.name server options := by
    intro event member
    rcases mem_shares permuted does member with measured | ⟨operation, handed, same⟩
    · exact .inl measured
    · rw [work] at handed
      obtain ⟨server, -, rfl⟩ := List.mem_map.mp handed
      exact .inr ⟨server, _, same⟩
  refine ⟨.cons (.append dispatched.obeyed ?_) trivial, ?_, ?_, ?_, ?_⟩
  · intro event between inside
    rcases each event (inside.mem (by simp)) with ⟨thing, same⟩ | ⟨server, options, same⟩
    · rw [same]
      trivial
    · rw [same]
      refine ⟨goesOn.later (List.suffix_append _ _), serving, .inr ?_⟩
      rw [← count, timesTold_append, dispatched.untold]
      exact countP_lt_of_suffix inside (by simp [same, announcesTo])
  · intro target
    have unasked : timesAsked target events = 0 := by
      apply timesAsked_eq_zero
      intro event member
      rcases each event member with ⟨thing, same⟩ | ⟨server, options, same⟩
      · rw [same]
        rfl
      · rw [same]
        rfl
    rw [← dispatched.asked, ← Nat.zero_add (timesAsked target past), ← unasked]
    exact timesAsked_append target events past
  · exact goesOn.later ((List.suffix_append _ _).trans (List.suffix_cons _ _))
  · intro server
    rw [if_neg serving, ← count, ← Nat.add_zero (timesTold server events),
      ← dispatched.untold server]
    exact timesTold_append server events past
  · intro event member server
    rcases List.mem_cons.mp member with rfl | rest
    · rfl
    · rcases List.mem_append.mp rest with told | earlier
      · rcases each event told with ⟨thing, same⟩ | ⟨other, options, same⟩
        · rw [same]
          rfl
        · rw [same]
          rfl
      · exact (dispatched.offline event earlier).2 server

private theorem Prepared.of_delete {past : List Event} {accepted : Nat}
    (dispatched : Dispatched pool zone accepted past) (goesOn : GoesOn pool past)
    (deleting : zone.action = .delete) : Prepared pool zone past where
  obeyed := dispatched.obeyed
  asked := dispatched.asked
  goesOn := goesOn
  told := by
    intro server
    rw [dispatched.untold, if_pos deleting]
  unverified := fun event member => (dispatched.offline event member).2

theorem announceToOthers_along {accepted : Nat}
    (dispatched : Dispatched pool zone accepted now.past) (goesOn : GoesOn pool now.past) :
    (amid manager anytime others).Along (fun later _ => Prepared pool zone later.past)
      (announceToOthers pool zone) now := by
  unfold announceToOthers
  split
  · next deleting =>
      apply Conduct.Along.pure
      intro last changed
      rw [others.past changed]
      exact .of_delete dispatched goesOn deleting
  · next serving =>
      have told : (amid manager anytime others).Along (fun later _ => Prepared pool zone later.past)
          (sideBySide (pool.alsoNotifies.map (.announce zone))) now := by
        apply amid_forks fun operation events _ => Does (subject manager operation) events
        · intro operation member
          obtain ⟨server, -, rfl⟩ := List.mem_map.mp member
          exact announce_does manager zone server
        · intro shares events later work shown permuted past
          rw [past, ← work]
          exact .of_shares dispatched goesOn serving work shown permuted
      apply Conduct.Along.bind told
      intro later results met
      apply Conduct.Along.pure
      intro last changed
      rw [others.past changed]
      exact met

end Preparation

end ZonePropagation.Propagation
