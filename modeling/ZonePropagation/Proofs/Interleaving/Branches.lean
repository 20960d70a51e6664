import ZonePropagation.Proofs.Interleaving.Answers
import ZonePropagation.Proofs.Interleaving.Law
/-!
The calls that the strands of a manager belong to.

A strand belongs to the call that it began with, and what it starts belongs to the same call.  A
strand is bound by the law of its own call, whatever the others are bound by.
-/

namespace ZonePropagation.Interleaving

open Propagation

structure Branch where
  strand : Strand
  call : Operation

/-- What a manager in use comes to, with the call of every strand. -/
inductive Branches (manager : Manager) (may : Operation → Prop) (registers : Zone → Prop)
    (initial : Surroundings) : Situation → List Branch → Prop
  | opening : Branches manager may registers initial ⟨initial, []⟩ []
  | act {now later : Situation} {before behind : List Branch} {branch : Branch} {moved : Strand}
      {operations : List Operation}
      (earlier : Branches manager may registers initial now (before ++ branch :: behind))
      (step : Strand.Step manager anytime now branch.strand later moved operations) :
      Branches manager may registers initial later
        (before ++ ⟨moved, branch.call⟩ :: behind ++
          operations.map fun operation => ⟨.start manager operation, branch.call⟩)
  | call {now : Situation} {branches : List Branch} {operation : Operation}
      (earlier : Branches manager may registers initial now branches) (allowed : may operation) :
      Branches manager may registers initial now
        (branches ++ [⟨.start manager operation, operation⟩])
  | register {past : List Event} {surroundings : Surroundings} {branches : List Branch}
      {zones : Registry.Memory} {zone : Zone}
      (earlier : Branches manager may registers initial ⟨surroundings, past⟩ branches)
      (kept : surroundings.registry = .memory zones) (allowed : registers zone) :
      Branches manager may registers initial
        ⟨{ surroundings with registry := .memory (zones.insertZone zone) }, past⟩ branches

namespace Branches

variable {manager : Manager} {may : Operation → Prop} {registers : Zone → Prop}
  {initial : Surroundings} {now : Situation} {branches : List Branch}

theorem reaches (run : Branches manager may registers initial now branches) :
    World.Reaches manager may (.opening initial) ⟨now, branches.map Branch.strand⟩ := by
  induction run with
  | opening => exact .refl
  | @act now later before behind branch moved operations _earlier step ih =>
      apply ih.tail
      have act : World.Act manager anytime
          ⟨now, before.map Branch.strand ++ branch.strand :: behind.map Branch.strand⟩
          ⟨later, before.map Branch.strand ++ moved :: behind.map Branch.strand ++
            operations.map (Strand.start manager)⟩ := .act step
      have worldStep : World.Step manager may _ _ := .act act
      simpa [Function.comp_def] using worldStep
  | @call now branches operation _earlier allowed ih =>
      apply ih.tail
      have worldStep : World.Step manager may ⟨now, branches.map Branch.strand⟩ _ := .call allowed
      simpa using worldStep
  | register _earlier kept _allowed ih => exact ih.tail (.register kept)

theorem governed {law : Operation → Law} (kept : ∀ call, (law call).Kept manager)
    (permitted : ∀ call, may call → (law call).permits call)
    (run : Branches manager may registers initial now branches) :
    (∀ branch ∈ branches, (law branch.call).Governs now.past branch.strand) ∧
      ∀ event earlier, event :: earlier <:+ now.past →
        ∃ branch ∈ branches, (law branch.call).allows earlier event.effect := by
  induction run with
  | opening =>
      refine ⟨by simp, ?_⟩
      intro event earlier inside
      cases List.suffix_nil.mp inside
  | @act now later before behind branch moved operations _earlier step ih =>
      obtain ⟨governs, obeyed⟩ := ih
      obtain ⟨performed, governed, started⟩ :=
        (governs branch (by simp)).performs (kept branch.call) step
      constructor
      · intro other member
        simp only [List.mem_append, List.mem_cons, List.mem_map] at member
        rcases member with (inBefore | rfl | inBehind) | ⟨operation, begun, rfl⟩
        · exact (governs other (by simp [inBefore])).later step.past_suffix
        · exact governed
        · exact (governs other (by simp [inBehind])).later step.past_suffix
        · exact .running (kept branch.call operation (started operation begun) _)
      · have earlier : ∀ event past, event :: past <:+ now.past →
            ∃ other ∈ before ++ ⟨moved, branch.call⟩ :: behind ++
              operations.map fun operation => ⟨.start manager operation, branch.call⟩,
              (law other.call).allows past event.effect := by
          intro event past inside
          obtain ⟨other, member, allowed⟩ := obeyed event past inside
          rcases List.mem_append.mp member with inBefore | inRest
          · exact ⟨other, by simp [inBefore], allowed⟩
          · rcases List.mem_cons.mp inRest with rfl | inBehind
            · exact ⟨⟨moved, other.call⟩, by simp, allowed⟩
            · exact ⟨other, by simp [inBehind], allowed⟩
        intro event past inside
        rcases performed with same | ⟨new, grown, allowed⟩
        · rw [same] at inside
          exact earlier event past inside
        · rw [grown] at inside
          rcases List.suffix_cons_iff.mp inside with same | within
          · cases same
            exact ⟨⟨moved, branch.call⟩, by simp, allowed⟩
          · exact earlier event past within
  | @call now branches operation _earlier allowed ih =>
      obtain ⟨governs, obeyed⟩ := ih
      constructor
      · intro other member
        rcases List.mem_append.mp member with earlier | begun
        · exact governs other earlier
        · rw [List.mem_singleton.mp begun]
          exact .running (kept operation operation (permitted operation allowed) _)
      · intro event past inside
        obtain ⟨other, member, allows⟩ := obeyed event past inside
        exact ⟨other, List.mem_append_left _ member, allows⟩
  | register _earlier _kept _allowed ih => exact ih

end Branches

end ZonePropagation.Interleaving
