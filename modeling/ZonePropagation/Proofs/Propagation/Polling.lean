import ZonePropagation.Proofs.Interleaving.Meanwhile
import ZonePropagation.Propagation.Program
/-!
What the pieces of an attempt perform: a change on a target, an announcement, and the verification
of a nameserver.

A nameserver is verified by the answers that it gives to questions, and the row that is written for
it says whether one of them arrived.
-/

namespace ZonePropagation.Propagation

open Interleaving

theorem Finding.serial_of_arrived {action : ZoneAction} {expected : UInt32} {found : Probe}
    (serving : action ≠ .delete) (arrived : Finding.ofProbe action expected found = .arrived) :
    ∃ value, found.serial = some value ∧ Serial.isAtLeast value expected = true := by
  have answered : (found.serial.any fun serial => Serial.isAtLeast serial expected) = true := by
    unfold Finding.ofProbe at arrived
    cases action with
    | delete => exact absurd rfl serving
    | _ =>
        cases outcome : found.outcome with
        | ok =>
            simp only [outcome] at arrived
            by_cases held : (found.serial.any fun serial => Serial.isAtLeast serial expected) = true
            · exact held
            · rw [if_neg held] at arrived
              cases arrived
        | _ =>
            simp only [outcome] at arrived
            cases arrived
  exact (Option.any_eq_true _ _).mp answered

theorem arrivedSerial_isAtLeast {action : ZoneAction} {expected : UInt32} {found : Probe}
    (arrived : Finding.ofProbe action expected found = .arrived) :
    Serial.isAtLeast ((arrivedSerial action found).getD expected) expected = true := by
  unfold arrivedSerial
  by_cases deleting : action = .delete
  · rw [if_pos deleting]
    simp [Serial.isAtLeast]
  · obtain ⟨value, held, atLeast⟩ := Finding.serial_of_arrived deleting arrived
    rw [if_neg deleting, held]
    exact atLeast

/-- The nameserver answered a question for the zone as the zone's action asks for. -/
def isArrival (zone : Zone) (server : Nameserver) : Event → Bool
  | ⟨.probe .question name asked _, found⟩ =>
      name == zone.name && asked == server &&
        Finding.ofProbe zone.action zone.serial found == .arrived
  | _ => false

def isAcceptance : Event → Bool
  | ⟨.callBackend _ _ _, some (_, accepted)⟩ => accepted
  | _ => false

/-- The event leaves rows, registry and locks alone, and tells no more than the answers of some
nameservers. -/
structure Aside (zone : Zone) (mine : Nameserver → Prop) (event : Event) : Prop where
  rows : writesRows event.effect = false
  reports : delivers event.effect = false
  locks : turnsLocks event.effect = false
  answers : ∀ server, ¬ mine server → isArrival zone server event = false

/-- The result of a poll, as the answers of the nameserver have it. -/
structure Polled (zone : Zone) (server : Nameserver) (events : List Event)
    (result : Status × Option UInt32) : Prop where
  aside : ∀ event ∈ events, Aside zone (· = server) event
  refused : events.any isAcceptance = false
  settled : result.1 ≠ .pending
  arrived : result.1 = .success ↔ events.any (isArrival zone server) = true
  confirms : result.1 = .success → Serial.isAtLeast (result.2.getD zone.serial) zone.serial = true

theorem Aside.measure {zone : Zone} {mine : Nameserver → Prop} (thing : Measure)
    (reply : Unit) : Aside zone mine ⟨.measure thing, reply⟩ :=
  ⟨rfl, rfl, rfl, fun _ _ => rfl⟩

theorem Aside.pause {zone : Zone} {mine : Nameserver → Prop} (millis : Nat) (reply : Unit) :
    Aside zone mine ⟨.pause millis, reply⟩ :=
  ⟨rfl, rfl, rfl, fun _ _ => rfl⟩

theorem Aside.announcement {zone : Zone} {mine : Nameserver → Prop} (name : String)
    (server : Nameserver) (options : ProbeOptions) (found : Probe) :
    Aside zone mine ⟨.probe .announcement name server options, found⟩ :=
  ⟨rfl, rfl, rfl, fun _ _ => rfl⟩

theorem Aside.question {zone : Zone} {server : Nameserver} (options : ProbeOptions)
    (found : Probe) :
    Aside zone (· = server) ⟨.probe .question zone.name server options, found⟩ := by
  refine ⟨rfl, rfl, rfl, ?_⟩
  intro other different
  unfold isArrival
  have elsewhere : (server == other) = false := by
    simpa using Ne.symm different
  simp [elsewhere]

theorem measure_yields (thing : Measure) :
    Yields (fun events reply => events = [⟨.measure thing, reply⟩]) (measure thing) :=
  Yields.perform rfl

theorem pause_yields (millis : Nat) :
    Yields (fun events (reply : Unit) => events = [⟨.pause millis, reply⟩])
      (perform (.pause millis)) :=
  @Yields.perform (.pause millis) rfl

theorem probe_yields (kind : ProbeKind) (zone : Zone) (server : Nameserver)
    (options : ProbeOptions) :
    Yields (fun events found => ∃ reply, events =
        [⟨.measure (.probe kind found.outcome.label), reply⟩,
          ⟨.probe kind zone.name server options, found⟩]) (probe kind zone server options) := by
  unfold probe
  apply Yields.bind (Yields.perform rfl)
  rintro earlier found rfl
  apply Yields.bind (measure_yields _)
  rintro measured reply rfl
  exact Yields.pure ⟨reply, rfl⟩

theorem announcement_yields {zone : Zone} {server : Nameserver} (options : ProbeOptions) :
    Yields (fun events (_ : Unit) => ∃ found reply, events =
        [⟨.measure (.probe .announcement found.outcome.label), reply⟩,
          ⟨.probe .announcement zone.name server options, found⟩])
      (discard (probe .announcement zone server options)) := by
  apply Yields.bind (probe_yields .announcement zone server options)
  rintro earlier found ⟨reply, rfl⟩
  exact Yields.pure ⟨found, reply, rfl⟩

/-! ### Polls -/

def resultOf (zone : Zone) (found : Probe) : Status × Option UInt32 :=
  if Finding.ofProbe zone.action zone.serial found = .arrived then
    (.success, arrivedSerial zone.action found)
  else (.error, found.serial)

section Polls

variable {zone : Zone} {server : Nameserver} {options : ProbeOptions}

/-- Asking with a number of attempts left ends with an answer that decides the question or uses
them up, and before that goes on with those that an undecided answer leaves. -/
theorem ask_yields (shows : Nat → List Event → Status × Option UInt32 → Prop)
    (last : ∀ left found reply,
      Finding.ofProbe zone.action zone.serial found ≠ .undecided ∨ left ≤ max 1 found.attempts →
        shows left
          [⟨.measure (.probe .question found.outcome.label), reply⟩,
            ⟨.probe .question zone.name server { options with maxRetries := left }, found⟩]
          (resultOf zone found))
    (again : ∀ left found reply paused later result,
      Finding.ofProbe zone.action zone.serial found = .undecided → max 1 found.attempts < left →
        shows (left - max 1 found.attempts) later result →
        shows left
          (later ++ [⟨.pause options.retryInterval, paused⟩,
            ⟨.measure (.probe .question found.outcome.label), reply⟩,
            ⟨.probe .question zone.name server { options with maxRetries := left }, found⟩])
          result)
    {further budget : Nat} (positive : 1 ≤ budget) (enough : budget ≤ further + 1) :
    Yields (shows budget) (ask options zone server further budget) := by
  induction further using Nat.strongRecOn generalizing budget with
  | ind further ih =>
      unfold ask
      apply Yields.bind (probe_yields .question zone server _)
      rintro earlier found ⟨reply, rfl⟩
      have closing := last budget found reply
      unfold resultOf at closing
      split
      · next arrived =>
          rw [if_pos arrived] at closing
          exact Yields.pure (closing (.inl (by rw [arrived]; decide)))
      · next failed =>
          rw [if_neg (by rw [failed]; decide)] at closing
          exact Yields.pure (closing (.inl (by rw [failed]; decide)))
      · next undecided =>
          rw [if_neg (by rw [undecided]; decide)] at closing
          cases further with
          | zero => exact Yields.pure (closing (.inr (by omega)))
          | succ further =>
              dsimp only
              split
              · next nothing => exact Yields.pure (closing (.inr (by omega)))
              · next left remaining =>
                  apply Yields.bind (pause_yields _)
                  rintro paused pauseReply rfl
                  apply (ih further (Nat.lt_succ_self further) (by omega) (by omega)).weaken
                  intro later result rest
                  rw [List.append_assoc]
                  exact again budget found reply pauseReply later result undecided (by omega)
                    (remaining ▸ rest)

private theorem question_aside (thing : Measure) (reply : Unit) (found : Probe) :
    ∀ event ∈ [(⟨.measure thing, reply⟩ : Event),
        ⟨.probe .question zone.name server options, found⟩],
      Aside zone (· = server) event := by
  intro event member
  rcases List.mem_cons.mp member with rfl | rest
  · exact .measure thing reply
  · rw [List.mem_singleton.mp rest]
    exact .question options found

private theorem Polled.of_answer (thing : Measure) (reply : Unit) (found : Probe) :
    Polled zone server
      [⟨.measure thing, reply⟩, ⟨.probe .question zone.name server options, found⟩]
      (resultOf zone found) := by
  unfold resultOf
  split
  · next arrived =>
      exact {
        aside := question_aside thing reply found
        refused := rfl
        settled := by simp
        arrived := by simp [isArrival, arrived]
        confirms := fun _ => arrivedSerial_isAtLeast arrived }
  · next missed =>
      exact {
        aside := question_aside thing reply found
        refused := rfl
        settled := by simp
        arrived := by simp [isArrival, missed]
        confirms := by simp }

private theorem Polled.append {later earlier : List Event} {result : Status × Option UInt32}
    (polled : Polled zone server later result)
    (aside : ∀ event ∈ earlier, Aside zone (· = server) event)
    (refused : earlier.any isAcceptance = false)
    (missed : earlier.any (isArrival zone server) = false) :
    Polled zone server (later ++ earlier) result where
  aside := by
    intro event member
    rcases List.mem_append.mp member with inLater | inEarlier
    · exact polled.aside event inLater
    · exact aside event inEarlier
  refused := by
    rw [List.any_append, polled.refused, refused]
    rfl
  settled := polled.settled
  arrived := by
    rw [List.any_append, missed, Bool.or_false]
    exact polled.arrived
  confirms := polled.confirms

private theorem Polled.measured {events : List Event} {result : Status × Option UInt32}
    (polled : Polled zone server events result) (thing : Measure) (reply : Unit) :
    Polled zone server (⟨.measure thing, reply⟩ :: events) result where
  aside := by
    intro event member
    rcases List.mem_cons.mp member with rfl | earlier
    · exact .measure thing reply
    · exact polled.aside event earlier
  refused := polled.refused
  settled := polled.settled
  arrived := polled.arrived
  confirms := polled.confirms

theorem poll_yields {policy : VerificationPolicy} :
    Yields (Polled zone server) (poll policy zone server) := by
  have asks : Yields (Polled zone server)
      (ask policy.probe zone server (policy.probe.budget - 1) policy.probe.budget) := by
    refine ask_yields (fun _ => Polled zone server)
      (fun left found reply _ => .of_answer _ reply found) ?_ (Nat.le_max_left _ _) (by omega)
    intro left found reply paused later result undecided _ polled
    refine polled.append ?_ rfl (by simp [isArrival, undecided])
    intro event member
    rcases List.mem_cons.mp member with rfl | asked
    · exact .pause _ _
    · exact question_aside _ _ found event asked
  unfold poll
  apply Yields.bind (pause_yields _)
  rintro delayed reply rfl
  split
  · apply asks.weaken
    intro later result polled
    refine polled.append ?_ rfl rfl
    intro event member
    rw [List.mem_singleton.mp member]
    exact .pause _ _
  · apply Yields.bind (announcement_yields _)
    rintro earlier _ ⟨found, measured, rfl⟩
    apply asks.weaken
    intro later result polled
    rw [List.append_assoc]
    refine polled.append ?_ rfl rfl
    intro event member
    simp only [List.cons_append, List.nil_append, List.mem_cons, List.not_mem_nil,
      or_false] at member
    rcases member with rfl | rfl | rfl
    · exact .measure _ _
    · exact .announcement _ _ _ _
    · exact .pause _ _

theorem verifyServer_yields {policy : VerificationPolicy} :
    Yields (Polled zone server) (verifyServer policy zone server) := by
  unfold verifyServer
  apply Yields.bind (measure_yields _)
  rintro started reply rfl
  apply Yields.bind poll_yields
  rintro asked ⟨status, serial⟩ polled
  apply Yields.bind (measure_yields _)
  rintro finished measured rfl
  apply Yields.pure
  have whole : Polled zone server (asked ++ [⟨.measure .verificationStarted, reply⟩])
      (status, serial) := by
    refine polled.append ?_ rfl rfl
    intro event member
    rw [List.mem_singleton.mp member]
    exact .measure _ _
  exact whole.measured _ measured

end Polls

theorem verify_yields (manager : Manager) (zone : Zone) (server : Nameserver) :
    Yields (fun events result => ∃ status serial reply rest,
        events = ⟨.storeRow zone.key server status serial, reply⟩ :: rest ∧
          result = .stored reply ∧ Polled zone server rest (status, serial))
      (manager.program (.verify zone server)) := by
  apply Yields.bind verifyServer_yields
  rintro rest ⟨status, serial⟩ polled
  apply Yields.bind (@Yields.perform (.storeRow zone.key server status serial) rfl)
  rintro stored reply rfl
  exact Yields.pure ⟨status, serial, reply, rest, rfl, rfl, polled⟩

theorem announce_yields (manager : Manager) (zone : Zone) (server : Nameserver) :
    Yields (fun events _ => (∀ event ∈ events, Aside zone (fun _ => False) event) ∧
        events.any isAcceptance = false) (manager.program (.announce zone server)) := by
  apply Yields.bind (announcement_yields _)
  rintro earlier _ ⟨found, reply, rfl⟩
  refine Yields.pure ⟨?_, rfl⟩
  intro event member
  simp only [List.nil_append, List.mem_cons, List.not_mem_nil, or_false] at member
  rcases member with rfl | rfl
  · exact .measure _ _
  · exact .announcement _ _ _ _

theorem change_yields (manager : Manager) (target : String) (zone : Zone) :
    Yields (fun events result => (∀ event ∈ events, Aside zone (fun _ => False) event) ∧
        events.any isAcceptance = result.isSuccess) (manager.program (.change target zone)) := by
  have changed : Yields (fun events accepted =>
      (∀ event ∈ events, Aside zone (fun _ => False) event) ∧
        events.any isAcceptance = accepted) (Propagation.change target zone) := by
    unfold Propagation.change
    apply Yields.bind (@Yields.perform (.callBackend target zone.action.change zone) rfl)
    rintro called reply rfl
    have aside : Aside zone (fun _ => False)
        ⟨.callBackend target zone.action.change zone, reply⟩ :=
      ⟨rfl, rfl, rfl, fun _ _ => rfl⟩
    cases reply with
    | none =>
        refine Yields.pure ⟨?_, rfl⟩
        intro event member
        rw [List.mem_singleton.mp member]
        exact aside
    | some answer =>
        obtain ⟨type, accepted⟩ := answer
        apply Yields.bind (measure_yields _)
        rintro measured reply rfl
        refine Yields.pure ⟨?_, ?_⟩
        · intro event member
          simp only [List.nil_append, List.cons_append, List.mem_cons, List.not_mem_nil,
            or_false] at member
          rcases member with rfl | rfl
          · exact .measure _ _
          · exact aside
        · simp [isAcceptance]
  apply Yields.bind changed
  rintro events accepted ⟨aside, same⟩
  exact Yields.pure ⟨aside, same⟩

theorem any_isAcceptance_of_shares {shares : List Share} {events : List Event}
    (permuted : events.Perm (shares.flatMap Share.events))
    (told : ∀ share ∈ shares, share.events.any isAcceptance = share.result.isSuccess) :
    events.any isAcceptance = ((shares.map Share.result).countP Result.isSuccess != 0) := by
  rw [permuted.any_eq, List.any_flatMap, Bool.eq_iff_iff, List.any_eq_true, bne_iff_ne,
    ← Nat.pos_iff_ne_zero, List.countP_map, List.countP_pos_iff]
  constructor
  · rintro ⟨share, inside, accepted⟩
    exact ⟨share, inside, (told share inside).symm.trans accepted⟩
  · rintro ⟨share, inside, succeeded⟩
    exact ⟨share, inside, (told share inside).trans succeeded⟩

end ZonePropagation.Propagation
