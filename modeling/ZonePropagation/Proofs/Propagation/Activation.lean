import ZonePropagation.Proofs.Interleaving.Branches
import ZonePropagation.Proofs.Interleaving.Play
import ZonePropagation.Proofs.Propagation.Evidence
import ZonePropagation.Proofs.Propagation.Rows
import ZonePropagation.Proofs.Registry.Delivery
/-!
What is known of a zone that turns active.

The success that completes a zone's pending action was reached by one attempt, for the serial and in
the pool of the copy that it worked on.  By then the registry may hold a newer serial, which it
keeps, or another pool, and the success of a deletion that the registry no longer waits for shows no
serial at all.
-/

namespace ZonePropagation

def Propagation.Operation.copy? : Operation → Option Zone
  | .propagate zone action => some { zone with action }
  | .recover zone => some zone.effective
  | _ => none

namespace Propagation

open Interleaving

def IsAttempt : Operation → Prop
  | .propagate _ action => action ≠ .none
  | .recover _ => True
  | _ => False

/-- One of the calls works on the copy. -/
def WorkedOn (branches : List Branch) (copy : Zone) : Prop :=
  ∃ branch ∈ branches, branch.call.copy? = some copy

def SeenAt (branches : List Branch) (past : List Event) (key : ActionKey) (serial : UInt32)
    (server : Nameserver) : Prop :=
  ∃ held reply, ⟨.storeRow key server .success held, reply⟩ ∈ past ∧
    Observed (WorkedOn branches) past key server held ∧
    if key.action = .delete then held = none
    else ∃ seen, held = some seen ∧ Serial.isAtLeast seen serial = true

/-- Enough nameservers of a copy's pool were seen at a serial or at a newer one. -/
def Seen (manager : Manager) (branches : List Branch) (past : List Event) (copy : Zone)
    (serial : UInt32) : Prop :=
  ∃ (pool : Pool) (servers : List Nameserver),
    manager.topology.get? copy.poolId = some pool ∧ servers.Nodup ∧
    pool.required ≤ servers.length ∧
      ∀ server ∈ servers, server ∈ pool.nameservers ∧
        SeenAt branches past copy.key serial server

private def nobody : Outsiders := fun _ _ _ _ => False

private def lawOf (manager : Manager) (call : Operation) : Law :=
  evidence manager nobody (call.copy? = some ·)

private theorem permitted_of_attempt {manager : Manager} {call : Operation}
    (attempt : IsAttempt call) : (lawOf manager call).permits call := by
  cases call with
  | propagate zone action =>
      refine ⟨rfl, ?_⟩
      cases action with
      | none => exact absurd rfl attempt
      | _ => rfl
  | recover zone => rfl
  | _ => cases attempt

section Runs

variable {manager : Manager} {may : Operation → Prop} {registers : Zone → Prop}
  {initial : Surroundings} {now : Situation} {branches : List Branch}

private theorem reported_of_written (attempts : ∀ operation, may operation → IsAttempt operation)
    (run : Branches manager may registers initial now branches) {key : ActionKey}
    {server : Nameserver} {held : Option UInt32} {reply : Except Fault Unit}
    (written : ⟨.storeRow key server .success held, reply⟩ ∈ now.past) :
    Observed (WorkedOn branches) now.past key server held := by
  obtain ⟨later, earlier, ordered⟩ := List.append_of_mem written
  have before : (⟨.storeRow key server .success held, reply⟩ : Event) :: earlier <:+ now.past :=
    ⟨later, ordered.symm⟩
  have kept (call : Operation) : (lawOf manager call).Kept manager :=
    evidence_kept manager nobody _
  obtain ⟨-, obeyed⟩ := run.governed kept fun call mayCall =>
    permitted_of_attempt (attempts call mayCall)
  obtain ⟨branch, member, allowed⟩ := obeyed _ earlier before
  have reported : Reported (branch.call.copy? = some ·) nobody earlier key server held :=
    allowed rfl
  rcases reported with observed | outside
  · obtain ⟨copy, own, sameKey, answered⟩ := observed
    exact ⟨copy, ⟨branch, member, own⟩, sameKey,
      answered.later ((List.suffix_cons _ _).trans before)⟩
  · obtain ⟨zone, -, impossible⟩ := outside
    cases impossible

private theorem Confirmed.seen (attempts : ∀ operation, may operation → IsAttempt operation)
    (run : Branches manager may registers initial now branches) (traced : Traced now)
    {copy : Zone} {serial : UInt32} (confirmed : Confirmed manager now.past copy serial) :
    Seen manager branches now.past copy serial := by
  obtain ⟨pool, rows, found, read, enough⟩ := confirmed
  have origin := traced.read copy.key rows read
  let counted := fun row : StatusRecord =>
    pool.hasNameserver row.nameserver && Quorum.reaches copy.serial serial row
  refine ⟨pool, (rows.filter counted).map StatusRecord.nameserver, found, ?_, ?_, ?_⟩
  · exact (List.filter_sublist.map _).nodup origin.distinct
  · rw [List.length_map, ← List.countP_eq_length_filter]
    exact enough
  · intro server member
    obtain ⟨row, kept, rfl⟩ := List.mem_map.mp member
    obtain ⟨inside, holds⟩ := List.mem_filter.mp kept
    obtain ⟨belongs, reaching⟩ := Bool.and_eq_true_iff.mp holds
    obtain ⟨success, atLeast⟩ := Bool.and_eq_true_iff.mp reaching
    refine ⟨List.contains_iff_mem.mp belongs, ?_⟩
    obtain ⟨reply, written⟩ := origin.written row inside
    rw [origin.underKey row inside, eq_of_beq success] at written
    have observed := reported_of_written attempts run written
    refine ⟨row.serial, reply, written, observed, ?_⟩
    obtain ⟨worked, -, sameKey, options, found, -, arrived, same⟩ := observed
    have sameAction : worked.action = copy.key.action := congrArg ActionKey.action sameKey
    rw [sameAction] at arrived same
    by_cases deleting : copy.key.action = .delete
    · rw [if_pos deleting, same, deleting]
      rfl
    · rw [if_neg deleting]
      obtain ⟨value, answered, -⟩ := Finding.serial_of_arrived deleting arrived
      unfold arrivedSerial at same
      rw [if_neg deleting, answered] at same
      refine ⟨value, same, ?_⟩
      rw [same] at atLeast
      exact atLeast

end Runs

def attempts : Operation → Prop
  | .propagate _ .create | .propagate _ .update | .recover _ => True
  | _ => False

def writesSeen (serial : UInt32) (server : Nameserver) : Effect → Bool
  | .storeRow _ other .success (some held) => other == server && Serial.isAtLeast held serial
  | _ => false

def lacks (pool : Pool) (serial : UInt32) (world : World) : Bool :=
  pool.nameservers.countP (fun server =>
    world.now.past.any fun event => writesSeen serial server event.effect) < pool.required

private def waiting (serial : UInt32) (action : ZoneAction) (poolId : String) : Zone where
  id := "z"
  name := "z."
  serial
  action
  status := .pending
  poolId
  updatedAt := ⟨0, 0⟩

private def gone : Probe := { outcome := .noDomain .nameError, serial := none, attempts := 1 }

end Propagation

end ZonePropagation
