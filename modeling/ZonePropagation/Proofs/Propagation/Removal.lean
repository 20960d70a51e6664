import ZonePropagation.Proofs.Interleaving.Play
import ZonePropagation.Proofs.Propagation.Evidence
import ZonePropagation.Proofs.Registry.Delivery
/-!
When a manager in use has a zone removed.

Whether an accepted success removes a zone depends on the pending action that the registry has for
it.  The success was judged for the action of the copy that the attempt worked on, and that need not
be the same action.
-/

namespace ZonePropagation.Propagation

open Interleaving

abbrev anyOperation : Operation → Prop := fun _ => True

theorem delivered_of_removed {manager : Manager} {may : Operation → Prop} {world next : World}
    {id : String} (step : World.Step manager may world next)
    (held : world.now.surroundings.registry.contains id = true)
    (removed : next.now.surroundings.registry.contains id = false) :
    ∃ report reply, next.now.past = ⟨.deliver report, reply⟩ :: world.now.past := by
  have changed : next.now.surroundings.registry ≠ world.now.surroundings.registry := by
    intro same
    rw [same, held] at removed
    cases removed
  cases step with
  | act act => exact act.delivered_of_changed changed
  | call _allowed => exact absurd rfl changed
  | @register past surroundings strands zones zone kept =>
      rw [show surroundings.registry.contains id = zones.contains id by rw [kept]; rfl] at held
      have stays := Registry.Memory.contains_insertZone zone held
      rw [show (zones.insertZone zone).contains id = false from removed] at stays
      cases stays

theorem removed_iff_delivered {manager : Manager} {may : Operation → Prop} {world next : World}
    {id : String} (step : World.Step manager may world next)
    (held : world.now.surroundings.registry.contains id = true) :
    next.now.surroundings.registry.contains id = false ↔
      world.now.surroundings.registry.pending? id = some .delete ∧
        ∃ serial, next.now.past =
          ⟨.deliver ⟨id, .success, serial⟩, .ok ()⟩ :: world.now.past := by
  constructor
  · intro removed
    obtain ⟨report, reply, delivered⟩ := delivered_of_removed step held removed
    obtain ⟨now, replied, left⟩ := step.registry_of_delivered delivered
    rw [left] at removed
    obtain ⟨sameId, success, accepted, waits⟩ :=
      (Registry.Store.deliver_removes_iff held).mp removed
    refine ⟨waits, report.serial, ?_⟩
    rw [delivered, ← sameId, ← success, ← accepted, ← replied]
  · rintro ⟨waits, serial, delivered⟩
    obtain ⟨now, replied, left⟩ := step.registry_of_delivered delivered
    rw [left]
    exact (Registry.Store.deliver_removes_iff held).mpr ⟨rfl, rfl, replied.symm, waits⟩

theorem recordCount_of_removed {manager : Manager} {may : Operation → Prop} {world next : World}
    {id : String} (step : World.Step manager may world next)
    (held : world.now.surroundings.registry.contains id = true)
    (removed : next.now.surroundings.registry.contains id = false) :
    next.now.surroundings.registry.recordCount id = 0 := by
  obtain ⟨report, reply, delivered⟩ := delivered_of_removed step held removed
  obtain ⟨now, _replied, left⟩ := step.registry_of_delivered delivered
  rw [left] at removed ⊢
  exact Registry.Store.deliver_removes_records held removed

private def anyResult : Outsiders := fun _ _ _ _ => True

/-- Enough rows of success for one action of a zone were read, at a serial or at a newer one. -/
def ConfirmedFor (manager : Manager) (past : List Event) (id : String) (action : ZoneAction)
    (serial : UInt32) : Prop :=
  ∃ copy : Zone, copy.id = id ∧ copy.action = action ∧ Confirmed manager past copy serial

/-- A zone is removed exactly by an accepted success that finds it waiting for its deletion, with
all its records.  Every success was confirmed for the action of the copy that was worked on, whichever
that is; the removal was confirmed for the deletion when no rows for another action were read. -/
theorem removed_iff_success_accepted {manager : Manager} {initial : Surroundings}
    {world next : World} {id : String}
    (run : World.Reaches manager anyOperation (.opening initial) world)
    (step : World.Step manager anyOperation world next)
    (held : world.now.surroundings.registry.contains id = true) :
    (next.now.surroundings.registry.contains id = false ↔
      world.now.surroundings.registry.pending? id = some .delete ∧
        ∃ serial, next.now.past =
          ⟨.deliver ⟨id, .success, serial⟩, .ok ()⟩ :: world.now.past) ∧
    (next.now.surroundings.registry.contains id = false →
      next.now.surroundings.registry.recordCount id = 0) ∧
    (∀ serial, next.now.past = ⟨.deliver ⟨id, .success, serial⟩, .ok ()⟩ :: world.now.past →
      ∃ action, ConfirmedFor manager world.now.past id action serial) ∧
    (next.now.surroundings.registry.contains id = false →
      (∀ action rows, ⟨.readRows ⟨id, action⟩, .ok rows⟩ ∈ world.now.past → action = .delete) →
        ∃ serial, ConfirmedFor manager world.now.past id .delete serial) := by
  have permitted : ∀ operation, anyOperation operation →
      (evidence manager anyResult fun _ => True).permits operation := by
    intro operation _
    cases operation with
    | record _ _ _ _ | propagate _ _ => exact ⟨trivial, trivial⟩
    | timer _ _ => exact fun _ => trivial
    | _ => trivial
  have obeyed := evidence_obeyed permitted (run.tail step)
  have confirmed : ∀ serial,
      next.now.past = ⟨.deliver ⟨id, .success, serial⟩, .ok ()⟩ :: world.now.past →
        ∃ action, ConfirmedFor manager world.now.past id action serial := by
    intro serial delivered
    obtain ⟨copy, -, sameId, judged⟩ := obeyed ⟨.deliver ⟨id, .success, serial⟩, .ok ()⟩
      world.now.past (delivered ▸ List.suffix_refl _) rfl
    exact ⟨copy.action, copy, sameId, rfl, judged.confirmed⟩
  refine ⟨removed_iff_delivered step held, recordCount_of_removed step held, confirmed, ?_⟩
  intro removed onlyDeletions
  obtain ⟨_waits, serial, delivered⟩ := (removed_iff_delivered step held).mp removed
  obtain ⟨action, copy, sameId, sameAction, pool, rows, found, read, enough⟩ :=
    confirmed serial delivered
  refine ⟨serial, copy, sameId, ?_, pool, rows, found, read, enough⟩
  unfold Zone.key at read
  rw [sameId] at read
  exact onlyDeletions copy.action rows read

private def served : Zone where
  id := "z"
  name := "z."
  serial := 10
  action := .update
  status := .active
  poolId := "p"
  updatedAt := ⟨0, 0⟩

private def oneServer : Manager where
  topology := { pools := [{ id := "p", name := "p", nameservers := [⟨"n", 53⟩] }] }
  policy := { probe := ⟨1000, 100, 3⟩, detached := true }

private def deleting : Surroundings where
  status := .memory { ttl := 1 }
  registry := .memory { zones := [{ served with action := .delete, status := .pending }] }

private def stillServed : Probe := { outcome := .ok, serial := some 10, attempts := 1 }

private def updating : List Move :=
  .call (.propagate served .update) ::
    (List.replicate 7 (.act 0 stillServed) ++ List.replicate 13 (.act 1 stillServed))

def untouched (key : ActionKey) (world : World) : Bool :=
  world.now.past.all fun event =>
    match event.effect with
    | .storeRow other _ _ _ => other != key
    | .readRows other => other != key
    | _ => true

private def registered (world : World) : Bool := world.now.surroundings.registry.contains "z"

private theorem update_run : ∃ world next,
    World.Reaches oneServer anyOperation (.opening deleting) world ∧
      World.Step oneServer anyOperation world next ∧ registered world = true ∧
        (!registered next && untouched ⟨"z", .delete⟩ next) = true := by
  have first : ((World.opening deleting).playAll oneServer updating).any registered = true := by
    decide +kernel
  have more : ((World.opening deleting).playAll oneServer
      (updating ++ [.act 1 stillServed])).any (fun next =>
        !registered next && untouched ⟨"z", .delete⟩ next) = true := by
    decide +kernel
  obtain ⟨world, next, run, act, seen⟩ := World.played (fun _ _ => trivial) first more
  exact ⟨world, next, run, .act act, seen⟩

/-- The success of an update removes a zone of which no row for a deletion was ever written. -/
theorem update_removes_zone : ∃ (manager : Manager) (initial : Surroundings) (world next : World)
    (pool : Pool), manager.topology.get? "p" = some pool ∧ 0 < pool.required ∧
      World.Reaches manager anyOperation (.opening initial) world ∧
      World.Step manager anyOperation world next ∧
      world.now.surroundings.registry.contains "z" = true ∧
      next.now.surroundings.registry.contains "z" = false ∧
      untouched ⟨"z", .delete⟩ next = true := by
  obtain ⟨world, next, run, step, held, outcome⟩ := update_run
  rw [Bool.and_eq_true, Bool.not_eq_true'] at outcome
  exact ⟨oneServer, deleting, world, next, _, rfl, by decide, run, step, held, outcome.1, outcome.2⟩

theorem removed_iff_success_accepted_update : ∃ world next,
    World.Reaches oneServer anyOperation (.opening deleting) world ∧
      World.Step oneServer anyOperation world next ∧
      world.now.surroundings.registry.contains "z" = true ∧
      world.now.surroundings.registry.pending? "z" = some .delete ∧
      next.now.surroundings.registry.recordCount "z" = 0 ∧
      ∃ serial action, ConfirmedFor oneServer world.now.past "z" action serial := by
  obtain ⟨world, next, run, step, held, outcome⟩ := update_run
  rw [Bool.and_eq_true, Bool.not_eq_true'] at outcome
  obtain ⟨removal, records, confirmed, -⟩ := removed_iff_success_accepted run step held
  obtain ⟨waits, serial, delivered⟩ := removal.mp outcome.1
  exact ⟨world, next, run, step, held, waits, records outcome.1, serial, confirmed serial delivered⟩

end ZonePropagation.Propagation
