import ZonePropagation.Proofs.Propagation.Account
import ZonePropagation.Proofs.Propagation.Locking
/-!
The results that verifications have stored.

Of all programs only the verification of a nameserver and the recording of a result store one.  What
an attempt does before and after its round of verifications spares them, also by the work that it
hands out.
-/

namespace ZonePropagation.Propagation

open Interleaving Status.Memory

/-- The results that were stored under the key, the latest first. -/
def storedResults (key : ActionKey) (past : List Event) : List Shown :=
  (past.filterMap (rowOf key)).filter fun shown => shown.2.1 != .pending

def storesResult : Effect → Bool
  | .storeRow _ _ status _ => status != .pending
  | _ => false

section Results

variable {key : ActionKey} {past : List Event}

theorem storedResults_append (later past : List Event) :
    storedResults key (later ++ past) = storedResults key later ++ storedResults key past := by
  unfold storedResults
  rw [List.filterMap_append, List.filter_append]

theorem storedResults_spared {events : List Event}
    (spared : ∀ event ∈ events, storesResult event.effect = false) :
    storedResults key events = [] := by
  unfold storedResults
  rw [List.filter_eq_nil_iff]
  intro shown member
  obtain ⟨⟨effect, reply⟩, inside, row⟩ := List.mem_filterMap.mp member
  cases effect with
  | storeRow written server status serial =>
      rw [rowOf_storeRow] at row
      split at row
      · cases row
        have pending : (status != .pending) = false := spared _ inside
        simp [pending]
      · cases row
  | _ => cases row

end Results

abbrev Sparing {α : Type} (manager : Manager) (program : Program α) : Prop :=
  Throughout manager (storesResult · = false) program

/-- Whatever else a program is known to come to, it leaves the stored results alone. -/
theorem solo_spares {α : Type} {manager : Manager} {timing : Timing} {key : ActionKey}
    {now : Situation} {goal : Situation → α → Prop} {program : Program α}
    (sparing : Sparing manager program) (along : (solo manager timing).Along goal program now) :
    (solo manager timing).Along (fun later value => goal later value ∧
      storedResults key later.past = storedResults key now.past) program now := by
  apply (solo_leads along).weaken
  rintro later value ⟨met, events, past, -, performs⟩
  refine ⟨met, ?_⟩
  rw [past, storedResults_append, storedResults_spared (performs.kind sparing), List.nil_append]

section Programs

variable {manager : Manager} {pool : Pool} {zone : Zone}

theorem Concludes.sparing {α : Type} {program : Program α} (concludes : Concludes zone program) :
    Sparing manager program := by
  apply Only.weaken concludes
  intro effect concluding
  cases effect with
  | storeRow _ _ _ _ | fork _ _ | detach _ => cases concluding
  | _ => exact ⟨rfl, fun _ handed => nomatch handed⟩

theorem Quiet.storesNone {α : Type} {program : Program α} (quiet : Quiet program) :
    Only (storesResult · = false) program := by
  apply Only.weaken quiet
  intro effect silent
  cases effect with
  | storeRow _ _ _ _ => cases silent
  | _ => rfl

theorem awaitAll_sparing (key : ActionKey) (servers : List Nameserver) :
    Sparing manager (servers.forM fun server => storeRow key server .pending none).run :=
  .triesForM fun _server _member => .perform ⟨rfl, fun _ handed => nomatch handed⟩

theorem dispatch_sparing : Sparing manager (dispatch pool zone) := by
  apply Only.bind (Throughout.sideBySide (fun _ => rfl) ?_) fun _ => .pure _
  intro operation member
  obtain ⟨target, -, rfl⟩ := List.mem_map.mp member
  exact (change_quiet target.id zone).storesNone.bind fun _ => .pure _

theorem announceToOthers_sparing : Sparing manager (announceToOthers pool zone) := by
  unfold announceToOthers
  split
  · exact .pure _
  · apply Only.bind (Throughout.sideBySide (fun _ => rfl) ?_) fun _ => .pure _
    intro operation member
    obtain ⟨server, -, rfl⟩ := List.mem_map.mp member
    have told : Only (storesResult · = false) (discard (probe .announcement zone server
        { manager.policy.probe with maxRetries := 1 })) :=
      (probe_quiet _ _ _ _).storesNone.bind fun _ => .pure _
    exact told.bind fun _ => .pure _

theorem locked_sparing {α : Type} {key : ActionKey} {work : Program α}
    (within : Sparing manager work) : Sparing manager (locked key work) := by
  apply locked_only ?_ within
  intro effect turning
  cases effect with
  | enter _ | acquire _ | release _ | retire _ _ | leave _ =>
      exact ⟨rfl, fun _ handed => nomatch handed⟩
  | _ => cases turning

end Programs

end ZonePropagation.Propagation
