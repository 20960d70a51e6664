import Mathlib.Data.ENat.Lattice
import Mathlib.Order.Bounds.Basic
import ZonePropagation.Probe.Client
/-!
The attempts of a probe.

The surroundings of a client decide how each attempt ends, whatever they remember of those before.
An exchange is repeated up to the first outcome that is settled, or else as often as is allowed,
with a rest between each two, and the last one decides the outcome.
-/

namespace ZonePropagation

theorem isLeast_succ {holds : Nat → Prop} {last : Nat} (first : ¬ holds 0)
    (later : IsLeast {index | holds (index + 1)} last) : IsLeast {index | holds index} (last + 1) := by
  refine ⟨later.1, ?_⟩
  intro index here
  cases index with
  | zero => exact absurd here first
  | succ index => exact Nat.succ_le_succ (later.2 here)

theorem succ_eq_min_of_isLeast {holds : Nat → Prop} {limit last : Nat}
    (least : IsLeast {index | holds index ∨ limit ≤ index} last) :
    ((last + 1 : Nat) : ℕ∞) =
      min (⨅ index : {index // holds index}, ((index.1 + 1 : Nat) : ℕ∞)) ((limit + 1 : Nat) : ℕ∞) := by
  apply le_antisymm
  · apply le_min
    · refine le_iInf fun index => ?_
      exact_mod_cast Nat.succ_le_succ (least.2 (.inl index.2))
    · exact_mod_cast Nat.succ_le_succ (least.2 (.inr (Nat.le_refl limit)))
  · rcases least.1 with here | allowed
    · exact (min_le_left _ _).trans (iInf_le _ (⟨last, here⟩ : {index // holds index}))
    · refine (min_le_right _ _).trans ?_
      exact_mod_cast Nat.succ_le_succ allowed

theorem Probe.ofSerialQuery_attempts (zone : String) (outcome : Outcome)
    (response : Option Message) (attempts : Nat) :
    (ofSerialQuery zone outcome response attempts).attempts = attempts := by
  unfold ofSerialQuery
  split
  · split <;> rfl
  · rfl

namespace Client

section Attempts

variable {σ α : Type} (attempt : StateM σ (Outcome × α)) (rest : StateM σ Unit)

def stateBefore (start : σ) : (index : Nat) → σ
  | 0 => start
  | index + 1 => (rest.run (attempt.run (stateBefore start index)).2).2

def attemptAt (start : σ) (index : Nat) : (Outcome × α) × σ :=
  attempt.run (stateBefore attempt rest start index)

noncomputable def firstSettled (start : σ) : ℕ∞ :=
  ⨅ index : {index // (attemptAt attempt rest start index).1.1.isRetryable = false},
    ((index.1 + 1 : Nat) : ℕ∞)

theorem attemptAt_succ (start : σ) (index : Nat) :
    attemptAt attempt rest start (index + 1) =
      attemptAt attempt rest (rest.run (attempt.run start).2).2 index := by
  have later : stateBefore attempt rest start (index + 1) =
      stateBefore attempt rest (rest.run (attempt.run start).2).2 index := by
    induction index with
    | zero => rfl
    | succ index ih => rw [stateBefore, ih, ← stateBefore]
  rw [attemptAt, later, ← attemptAt]

theorem retry_succ_run (start : σ) (made left : Nat) :
    (retry attempt rest made (left + 1)).run start =
      if (attempt.run start).1.1.isRetryable = true then
        (retry attempt rest (made + 1) left).run (rest.run (attempt.run start).2).2
      else (((attempt.run start).1.1, (attempt.run start).1.2, made + 1), (attempt.run start).2) := by
  rw [retry, StateT.run_bind]
  change StateT.run (if (attempt.run start).1.1.isRetryable = true then _ else _) _ = _
  split <;> rfl

theorem retry_eq (start : σ) (made left : Nat) :
    ∃ last, IsLeast {index | (attemptAt attempt rest start index).1.1.isRetryable = false ∨
        left ≤ index} last ∧
      (retry attempt rest made left).run start =
        (((attemptAt attempt rest start last).1.1, (attemptAt attempt rest start last).1.2,
          made + (last + 1)), (attemptAt attempt rest start last).2) := by
  induction left generalizing start made with
  | zero => exact ⟨0, ⟨.inr (Nat.le_refl 0), fun index _ => Nat.zero_le index⟩, rfl⟩
  | succ left ih =>
      cases again : (attempt.run start).1.1.isRetryable with
      | false =>
          refine ⟨0, ⟨.inl again, fun index _ => Nat.zero_le index⟩, ?_⟩
          rw [retry_succ_run, if_neg (by rw [again]; decide)]
          rfl
      | true =>
          obtain ⟨last, least, ends⟩ := ih (rest.run (attempt.run start).2).2 (made + 1)
          refine ⟨last + 1, ?_, ?_⟩
          · apply isLeast_succ
            · simp [attemptAt, stateBefore, again]
            · simpa only [attemptAt_succ, Nat.add_le_add_iff_right] using least
          · have counted : made + (last + 1 + 1) = made + 1 + (last + 1) := by omega
            rw [retry_succ_run, if_pos again, attemptAt_succ, counted, ends]

end Attempts

variable {σ : Type} (client : Client) (net : Transport (StateM σ))

/-- Exchanges of a request are made up to the first settled outcome, or else as many as the options
allow.  The last one decides the result, which tells how many they were. -/
theorem settle_eq (request : Message) (server : Nameserver) (options : ProbeOptions) (start : σ) :
    ∃ last, ((last + 1 : Nat) : ℕ∞) =
        min (firstSettled (client.exchange net request server options.timeout)
          (net.pause options.retryInterval) start) ((max 1 options.maxRetries : Nat) : ℕ∞) ∧
      (client.settle net request server options).run start =
        let final := attemptAt (client.exchange net request server options.timeout)
          (net.pause options.retryInterval) start last
        ((final.1.1, final.1.2, last + 1), final.2) := by
  obtain ⟨last, least, ends⟩ := retry_eq (client.exchange net request server options.timeout)
    (net.pause options.retryInterval) start 0 (options.budget - 1)
  refine ⟨last, ?_, ?_⟩
  · have budget : options.budget - 1 + 1 = max 1 options.maxRetries := by
      unfold ProbeOptions.budget
      omega
    rw [succ_eq_min_of_isLeast least, budget]
    rfl
  · rw [settle, ends, Nat.zero_add]

/-- How many exchanges a question for the serial of a zone makes when it is put in a state: those
up to the first settled outcome, or else as many as the options allow. -/
noncomputable def exchanges (zone : String) (server : Nameserver) (options : ProbeOptions)
    (before : σ) : ℕ∞ :=
  let (id, start) := net.freshId.run before
  min (firstSettled (client.exchange net (Message.soaQuery id zone) server options.timeout)
    (net.pause options.retryInterval) start) ((max 1 options.maxRetries : Nat) : ℕ∞)

theorem querySerial_run (zone : String) (server : Nameserver) (options : ProbeOptions)
    (before : σ) :
    ((client.querySerial net zone server options).run before).1 =
      let settled := (client.settle net (Message.soaQuery (net.freshId.run before).1 zone) server
        options).run (net.freshId.run before).2
      Probe.ofSerialQuery zone settled.1.1 settled.1.2.1 settled.1.2.2 := rfl

theorem querySerial_attempts (zone : String) (server : Nameserver) (options : ProbeOptions)
    (before : σ) :
    (((client.querySerial net zone server options).run before).1.attempts : ℕ∞) =
      client.exchanges net zone server options before := by
  obtain ⟨last, counted, ends⟩ := settle_eq client net
    (Message.soaQuery (net.freshId.run before).1 zone) server options (net.freshId.run before).2
  rw [querySerial_run, ends]
  dsimp only
  rw [Probe.ofSerialQuery_attempts, counted]
  rfl

theorem querySerial_bounds (zone : String) (server : Nameserver) (options : ProbeOptions)
    (before : σ) :
    1 ≤ ((client.querySerial net zone server options).run before).1.attempts ∧
      ((client.querySerial net zone server options).run before).1.attempts ≤
        max 1 options.maxRetries := by
  have counted := querySerial_attempts client net zone server options before
  have some_ : (1 : ℕ∞) ≤ client.exchanges net zone server options before := by
    refine le_min (le_iInf fun index => ?_) ?_
    · exact_mod_cast Nat.succ_le_succ (Nat.zero_le index.1)
    · exact_mod_cast Nat.le_max_left 1 options.maxRetries
  have few : client.exchanges net zone server options before ≤
      ((max 1 options.maxRetries : Nat) : ℕ∞) := min_le_right _ _
  rw [← counted] at some_ few
  exact ⟨by exact_mod_cast some_, by exact_mod_cast few⟩

end Client

end ZonePropagation
