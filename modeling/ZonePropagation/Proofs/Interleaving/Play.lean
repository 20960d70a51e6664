import ZonePropagation.Proofs.Interleaving.Answers
/-!
Runs that are played move by move.

A player picks which strand takes a step and what the nameservers answer.  Whatever is played is a
run of the manager, so that playing shows what can happen.
-/

namespace ZonePropagation.Interleaving

open Propagation

inductive Move where
  | call (operation : Operation)
  | register (zone : Zone)
  | act (place : Nat) (found : Probe)

/-- The reply to an effect, unless it waits for a lock or for work. -/
def replyTo (found : Probe) (before : Surroundings) :
    (effect : Effect) → Option (Reply effect × Surroundings)
  | .probe _ _ _ _ => some (found, before)
  | .awaitTick _ => some (false, before)
  | .fork _ _ => none
  | .acquire lock =>
      if before.locks.isFree lock then some ((), { before with locks := before.locks.hold lock })
      else none
  | effect => some (((Surroundings.answer silence default effect).run before).run ()).1

def resultsOf : List Strand → Option (List Result)
  | [] => some []
  | .running (.done result) :: rest => (resultsOf rest).map (result :: ·)
  | _ => none

def Strand.play (manager : Manager) (found : Probe) (now : Situation) :
    Strand → Option (Situation × Strand × List Operation)
  | .running (.done _) => none
  | .running (.perform (.fork width work) next) =>
      some (now, .waiting width work (work.map (Strand.start manager)) next, [])
  | .running (.perform effect next) =>
      (replyTo found now.surroundings effect).map fun (reply, after) =>
        (now.following effect reply after, .running (next reply), started effect)
  | .waiting width work strands next =>
      (resultsOf strands).map fun results =>
        (now.following (.fork width work) results now.surroundings, .running (next results), [])

def World.play (manager : Manager) (world : World) : Move → Option World
  | .call operation =>
      some { world with strands := world.strands ++ [.start manager operation] }
  | .register zone =>
      match world.now.surroundings.registry with
      | .memory zones => some { world with now := { world.now with
          surroundings := { world.now.surroundings with
            registry := .memory (zones.insertZone zone) } } }
      | .table _ => none
  | .act place found =>
      world.strands[place]?.bind fun strand =>
        (strand.play manager found world.now).map fun (later, moved, operations) =>
          ⟨later, world.strands.take place ++ moved :: world.strands.drop (place + 1) ++
            operations.map (Strand.start manager)⟩

def World.playAll (manager : Manager) (world : World) (moves : List Move) : Option World :=
  moves.foldlM (World.play manager) world

theorem replyTo_answers {found : Probe} {before after : Surroundings} {effect : Effect}
    {reply : Reply effect} (replied : replyTo found before effect = some (reply, after)) :
    Answers anytime before effect reply after := by
  cases effect with
  | probe _ _ _ _ =>
      cases replied
      rfl
  | awaitTick _ =>
      cases replied
      rfl
  | fork _ _ => cases replied
  | acquire lock =>
      change (if before.locks.isFree lock then
        some ((), { before with locks := before.locks.hold lock }) else none) = _ at replied
      split at replied
      · next free =>
          cases replied
          exact ⟨free, rfl⟩
      · cases replied
  | _ => exact ⟨Unit, silence, default, (), (), trivial, by
      rw [← Option.some.inj replied]
      rfl⟩

theorem resultsOf_some {strands : List Strand} {results : List Result}
    (done : resultsOf strands = some results) :
    strands = results.map fun result => .running (.done result) := by
  induction strands generalizing results with
  | nil =>
      cases done
      rfl
  | cons strand rest ih =>
      cases strand with
      | waiting _ _ _ _ => cases done
      | running task =>
          cases task with
          | perform _ _ => cases done
          | done result =>
              obtain ⟨others, finished, rfl⟩ := Option.map_eq_some_iff.mp done
              rw [ih finished]
              rfl

private theorem Strand.play_single {manager : Manager} {found : Probe} {now : Situation}
    {effect : Effect} {next : Reply effect → Program Result} (single : isFork effect = false) :
    Strand.play manager found now (.running (.perform effect next)) =
      (replyTo found now.surroundings effect).map fun (reply, after) =>
        (now.following effect reply after, .running (next reply), started effect) := by
  cases effect with
  | fork _ _ => cases single
  | _ => rfl

theorem Strand.play_step {manager : Manager} {found : Probe} {now later : Situation}
    {strand moved : Strand} {operations : List Operation}
    (played : strand.play manager found now = some (later, moved, operations)) :
    Strand.Step manager anytime now strand later moved operations := by
  cases strand with
  | running task =>
      cases task with
      | done _ => cases played
      | perform effect next =>
          cases single : isFork effect with
          | true =>
              cases effect with
              | fork width work =>
                  cases played
                  exact .fork
              | _ => cases single
          | false =>
              rw [Strand.play_single single] at played
              obtain ⟨⟨reply, after⟩, replied, outcome⟩ := Option.map_eq_some_iff.mp played
              cases outcome
              exact .perform single (replyTo_answers replied)
  | waiting width work strands next =>
      obtain ⟨results, done, outcome⟩ := Option.map_eq_some_iff.mp played
      cases outcome
      rw [resultsOf_some done]
      exact .join

theorem World.play_act {manager : Manager} {world next : World} {place : Nat} {found : Probe}
    (played : world.play manager (.act place found) = some next) :
    World.Act manager anytime world next := by
  obtain ⟨strand, picked, stepped⟩ := Option.bind_eq_some_iff.mp played
  obtain ⟨⟨later, moved, operations⟩, went, outcome⟩ := Option.map_eq_some_iff.mp stepped
  cases outcome
  obtain ⟨inside, same⟩ := List.getElem?_eq_some_iff.mp picked
  have split : world.strands =
      world.strands.take place ++ strand :: world.strands.drop (place + 1) := by
    rw [← same, List.getElem_cons_drop, List.take_append_drop]
  have act : World.Act manager anytime
      ⟨world.now, world.strands.take place ++ strand :: world.strands.drop (place + 1)⟩
      ⟨later, world.strands.take place ++ moved :: world.strands.drop (place + 1) ++
        operations.map (Strand.start manager)⟩ := .act (Strand.play_step went)
  rw [← split] at act
  exact act

theorem World.play_step {manager : Manager} {may : Operation → Prop} {world next : World}
    {move : Move} (allowed : ∀ operation, move = .call operation → may operation)
    (played : world.play manager move = some next) : World.Step manager may world next := by
  cases move with
  | call operation =>
      cases played
      exact .call (allowed operation rfl)
  | register zone =>
      obtain ⟨⟨surroundings, past⟩, strands⟩ := world
      cases kept : surroundings.registry with
      | memory zones =>
          simp only [World.play, kept] at played
          cases played
          exact .register kept
      | table _ =>
          simp only [World.play, kept] at played
          cases played
  | act place found => exact .act (World.play_act played)

theorem World.playAll_reaches {manager : Manager} {may : Operation → Prop} {world last : World}
    {moves : List Move} (allowed : ∀ operation, .call operation ∈ moves → may operation)
    (played : world.playAll manager moves = some last) : World.Reaches manager may world last := by
  induction moves generalizing world with
  | nil =>
      cases played
      exact .refl
  | cons move rest ih =>
      unfold World.playAll at played
      rw [List.foldlM_cons] at played
      obtain ⟨next, first, others⟩ := Option.bind_eq_some_iff.mp played
      have step : World.Step manager may world next :=
        World.play_step (fun operation same => allowed operation (by simp [same])) first
      exact .head step (ih (fun operation member => allowed operation (by simp [member])) others)

/-- A run that is played, with one more step of a strand: what can be seen of the worlds before and
after that step. -/
theorem World.played {manager : Manager} {may : Operation → Prop} {world : World}
    {moves : List Move} {place : Nat} {found : Probe} {before after : World → Bool}
    (allowed : ∀ operation, .call operation ∈ moves → may operation)
    (first : (world.playAll manager moves).any before = true)
    (more : (world.playAll manager (moves ++ [.act place found])).any after = true) :
    ∃ reached next, World.Reaches manager may world reached ∧
      World.Act manager anytime reached next ∧ before reached = true ∧ after next = true := by
  obtain ⟨reached, playedFirst, seen⟩ := (Option.any_eq_true _ _).mp first
  obtain ⟨next, playedMore, seenNext⟩ := (Option.any_eq_true _ _).mp more
  unfold World.playAll at playedFirst playedMore
  rw [List.foldlM_append, playedFirst] at playedMore
  have moved : reached.play manager (.act place found) = some next := by
    simpa using playedMore
  exact ⟨reached, next, World.playAll_reaches allowed playedFirst, World.play_act moved, seen,
    seenNext⟩

/-! ### Playing one strand -/

def Strand.isDone : Strand → Bool
  | .running (.done _) => true
  | _ => false

/-- A step of a strand, or of the first of its own strands that is not done. -/
def Strand.playFirst (manager : Manager) (found : Probe) (now : Situation) :
    Strand → Option (Situation × Strand × List Operation)
  | .waiting width work strands next =>
      match strands.dropWhile Strand.isDone with
      | [] => Strand.play manager found now (.waiting width work strands next)
      | strand :: behind =>
          (strand.play manager found now).map fun (later, moved, operations) =>
            (later, .waiting width work (strands.takeWhile Strand.isDone ++ moved :: behind) next,
              operations)
  | strand => strand.play manager found now

def World.playFirst (manager : Manager) (found : Probe) : Nat → World → Option World
  | 0, world => some world
  | steps + 1, ⟨now, strand :: behind⟩ =>
      (strand.playFirst manager found now).bind fun (later, moved, operations) =>
        World.playFirst manager found steps
          ⟨later, moved :: behind ++ operations.map (Strand.start manager)⟩
  | _ + 1, ⟨_, []⟩ => none

theorem Strand.playFirst_step {manager : Manager} {found : Probe} {now later : Situation}
    {strand moved : Strand} {operations : List Operation}
    (played : strand.playFirst manager found now = some (later, moved, operations)) :
    Strand.Step manager anytime now strand later moved operations := by
  cases strand with
  | running _ => exact Strand.play_step played
  | waiting width work strands next =>
      have whole : strands.takeWhile Strand.isDone ++ strands.dropWhile Strand.isDone = strands :=
        List.takeWhile_append_dropWhile
      simp only [Strand.playFirst] at played
      cases rest : strands.dropWhile Strand.isDone with
      | nil =>
          rw [rest] at played
          exact Strand.play_step played
      | cons strand behind =>
          rw [rest] at played whole
          obtain ⟨⟨_, inner, _⟩, stepped, outcome⟩ := Option.map_eq_some_iff.mp played
          cases outcome
          generalize strands.takeWhile Strand.isDone = done at whole
          rw [← whole]
          exact .inner (Strand.play_step stepped)

theorem World.playFirst_acts {manager : Manager} {found : Probe} {steps : Nat}
    {world last : World} (played : world.playFirst manager found steps = some last) :
    Relation.ReflTransGen (World.Act manager anytime) world last := by
  induction steps generalizing world with
  | zero =>
      cases played
      exact .refl
  | succ steps ih =>
      obtain ⟨now, strands⟩ := world
      cases strands with
      | nil => cases played
      | cons strand behind =>
          obtain ⟨⟨later, moved, operations⟩, stepped, rest⟩ := Option.bind_eq_some_iff.mp played
          have act : World.Act manager anytime ⟨now, [] ++ strand :: behind⟩
              ⟨later, [] ++ moved :: behind ++ operations.map (Strand.start manager)⟩ :=
            .act (Strand.playFirst_step stepped)
          exact .head act (ih rest)

end ZonePropagation.Interleaving
