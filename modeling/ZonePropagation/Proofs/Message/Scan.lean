import ZonePropagation.Message.Reader
import ZonePropagation.Proofs.Octets.Placement
/-!
Readings that tell what they take of a message.

A scan is the outcome of a reading with the stretches of the message that are taken on the way.  It
is sound if it takes nothing outside, and rests on nothing but what it takes.  Scans that are made
of sound ones, one after the other, are sound.
-/

namespace ZonePropagation

/-- Octets that are taken at once, from `start` up to `stop`.  If they are guarded, they are looked
for, and nothing is found where they are not inside; if not, they are taken as they are. -/
structure Stretch where
  start : Nat
  stop : Nat
  guarded : Bool := true
deriving DecidableEq, Repr

namespace Stretch

def Inside (message : Octets) (stretch : Stretch) : Prop :=
  stretch.start ≤ stretch.stop ∧ stretch.stop ≤ message.size

instance (message : Octets) (stretch : Stretch) : Decidable (stretch.Inside message) :=
  inferInstanceAs (Decidable (_ ∧ _))

def Same (message other : Octets) (stretch : Stretch) : Prop :=
  ∀ offset, stretch.start ≤ offset → offset < stretch.stop → other[offset]? = message[offset]?

end Stretch

/-- What a reading comes to, and the stretches that it takes, in their order. -/
structure Scan (α : Type) where
  outcome : Except MessageError α
  taken : List Stretch

namespace Scan

variable {α β : Type}

/-- A scan that fails is not followed by another one. -/
def followedBy (first : Scan α) (next : α → Scan β) : Scan β :=
  match first.outcome with
  | .error error => ⟨.error error, first.taken⟩
  | .ok value => ⟨(next value).outcome, first.taken ++ (next value).taken⟩

instance : Monad Scan where
  pure value := ⟨.ok value, []⟩
  bind := followedBy

def fail (error : MessageError) : Scan α := ⟨.error error, []⟩

/-- A reading that looks for the octets from `start` up to `stop`. -/
def look (start stop : Nat) (found : Option α) : Scan α where
  outcome :=
    match found with
    | some value => .ok value
    | none => .error .truncated
  taken := [{ start, stop }]

def octet (message : Octets) (offset : Nat) : Scan UInt8 :=
  look offset (offset + 1) message[offset]?

def uint16 (message : Octets) (offset : Nat) : Scan UInt16 :=
  look offset (offset + 2) (Octets.uint16At? message offset)

def uint32 (message : Octets) (offset : Nat) : Scan UInt32 :=
  look offset (offset + 4) (Octets.uint32At? message offset)

def slice (message : Octets) (offset length : Nat) : Scan Octets :=
  look offset (offset + length) (Octets.slice? message offset length)

/-- The octets between two offsets, without a look whether they are inside. -/
def extract (message : Octets) (start stop : Nat) : Scan Octets :=
  ⟨.ok (message.extract start stop), [{ start, stop, guarded := false }]⟩

def mapError (name : MessageError → MessageError) (scan : Scan α) : Scan α :=
  { scan with outcome := scan.outcome.mapError name }

/-- Scans `count` parts one after the other, as `readMany` reads them. -/
def many (scanOne : Nat → Scan (α × Nat)) :
    (count : Nat) → (offset : Nat) → (done : List α) → Scan (List α × Nat)
  | 0, offset, done => return (done.reverse, offset)
  | count + 1, offset, done => do
      let (part, next) ← scanOne offset
      many scanOne count next (part :: done)

/-! ### Outcomes -/

@[simp] theorem outcome_pure (value : α) : (pure value : Scan α).outcome = .ok value := rfl

@[simp] theorem outcome_fail (error : MessageError) :
    (fail error : Scan α).outcome = .error error := rfl

theorem bind_of_ok {first : Scan α} {next : α → Scan β} {value : α}
    (made : first.outcome = .ok value) :
    first >>= next = ⟨(next value).outcome, first.taken ++ (next value).taken⟩ := by
  change first.followedBy next = _
  rw [followedBy, made]

theorem bind_of_error {first : Scan α} {next : α → Scan β} {error : MessageError}
    (failed : first.outcome = .error error) : first >>= next = ⟨.error error, first.taken⟩ := by
  change first.followedBy next = _
  rw [followedBy, failed]

@[simp] theorem outcome_bind (first : Scan α) (next : α → Scan β) :
    (first >>= next).outcome = first.outcome >>= fun value => (next value).outcome := by
  cases made : first.outcome with
  | error error => rw [bind_of_error made, error_bind]
  | ok value => rw [bind_of_ok made, ok_bind]

@[simp] theorem outcome_mapError (name : MessageError → MessageError) (scan : Scan α) :
    (scan.mapError name).outcome = scan.outcome.mapError name := rfl

theorem outcome_found (start stop : Nat) (value : α) :
    (look start stop (some value)).outcome = .ok value := rfl

@[simp] theorem outcome_uint16 (message : Octets) (offset : Nat) :
    (uint16 message offset).outcome = readUInt16 message offset := by
  unfold uint16 look readUInt16
  cases Octets.uint16At? message offset <;> rfl

@[simp] theorem outcome_uint32 (message : Octets) (offset : Nat) :
    (uint32 message offset).outcome = readUInt32 message offset := by
  unfold uint32 look readUInt32
  cases Octets.uint32At? message offset <;> rfl

theorem outcome_many {scanOne : Nat → Scan (α × Nat)}
    {readOne : Nat → Except MessageError (α × Nat)}
    (each : ∀ offset, (scanOne offset).outcome = readOne offset) (count offset : Nat)
    (done : List α) :
    (many scanOne count offset done).outcome = readMany readOne count offset done := by
  induction count generalizing offset done with
  | zero => rfl
  | succ count ih =>
      rw [many, readMany, outcome_bind, each]
      cases readOne offset with
      | error error => rfl
      | ok result => exact ih result.2 (result.1 :: done)

/-! ### Soundness -/

variable {message : Octets}

/-- A scan rests on what it takes of the message, and this is inside: all of it if the scan
succeeds, and what is not guarded in any case. -/
structure Sound (message : Octets) (scan : Octets → Scan α) : Prop where
  inside : ∀ value, (scan message).outcome = .ok value →
    ∀ stretch ∈ (scan message).taken, stretch.Inside message
  unguarded : ∀ stretch ∈ (scan message).taken, stretch.guarded = false → stretch.Inside message
  determined : ∀ other : Octets, other.size = message.size →
    (∀ stretch ∈ (scan message).taken, stretch.Same message other) → scan other = scan message

theorem sound_of_nothing (outcome : Except MessageError α) :
    Sound message fun _ => ⟨outcome, []⟩ where
  inside _ _ := List.forall_mem_nil _
  unguarded := List.forall_mem_nil _
  determined _ _ _ := rfl

theorem sound_pure (value : α) : Sound message fun _ => (pure value : Scan α) :=
  sound_of_nothing (.ok value)

theorem sound_fail (error : MessageError) : Sound message fun _ => (fail error : Scan α) :=
  sound_of_nothing (.error error)

theorem Sound.bind {first : Octets → Scan α} {next : α → Octets → Scan β}
    (sound : Sound message first)
    (follow : ∀ value, (first message).outcome = .ok value → Sound message (next value)) :
    Sound message fun octets => first octets >>= fun value => next value octets := by
  cases made : (first message).outcome with
  | error error =>
      refine ⟨fun value succeeded => ?_, ?_, fun other size same => ?_⟩
      · rw [bind_of_error made] at succeeded
        cases succeeded
      · rw [bind_of_error made]
        exact sound.unguarded
      · rw [bind_of_error made] at same
        rw [sound.determined other size same, bind_of_error made, bind_of_error made]
  | ok value =>
      have later := follow value made
      refine ⟨fun result succeeded => ?_, ?_, fun other size same => ?_⟩
      · rw [bind_of_ok made] at succeeded ⊢
        exact List.forall_mem_append.mpr
          ⟨sound.inside value made, later.inside result succeeded⟩
      · rw [bind_of_ok made]
        exact List.forall_mem_append.mpr ⟨sound.unguarded, later.unguarded⟩
      · rw [bind_of_ok made] at same
        obtain ⟨sameFirst, sameNext⟩ := List.forall_mem_append.mp same
        rw [sound.determined other size sameFirst, bind_of_ok made, bind_of_ok made,
          later.determined other size sameNext]

theorem Sound.ite {condition : Prop} [Decidable condition] {first second : Octets → Scan α}
    (holds : condition → Sound message first) (fails : ¬condition → Sound message second) :
    Sound message fun octets => if condition then first octets else second octets := by
  by_cases decided : condition
  · simpa only [if_pos decided] using holds decided
  · simpa only [if_neg decided] using fails decided

theorem Sound.behind {stop : Nat} {rest : Octets → Scan α} {error : MessageError}
    (sound : stop ≤ message.size → Sound message rest) :
    Sound message fun octets => if stop > octets.size then fail error else rest octets := by
  by_cases outside : stop > message.size
  · refine ⟨?_, ?_, fun other size _ => ?_⟩
    · simp only [if_pos outside]
      exact (sound_fail error).inside
    · simp only [if_pos outside]
      exact (sound_fail error).unguarded
    · simp only [size, if_pos outside]
  · have rests := sound (Nat.le_of_not_lt outside)
    refine ⟨?_, ?_, fun other size => ?_⟩
    · simp only [if_neg outside]
      exact rests.inside
    · simp only [if_neg outside]
      exact rests.unguarded
    · simp only [size, if_neg outside]
      exact rests.determined other size

theorem Sound.mapError {scan : Octets → Scan α} (sound : Sound message scan)
    (name : MessageError → MessageError) :
    Sound message fun octets => (scan octets).mapError name := by
  refine ⟨fun value succeeded => ?_, sound.unguarded, fun other size same => ?_⟩
  · exact sound.inside value (mapError_eq_ok_iff.mp succeeded)
  · rw [sound.determined other size same]

theorem Sound.many {scanOne : Octets → Nat → Scan (α × Nat)}
    (each : ∀ offset, Sound message fun octets => scanOne octets offset) (count offset : Nat)
    (done : List α) : Sound message fun octets => many (scanOne octets) count offset done := by
  induction count generalizing offset done with
  | zero => exact sound_pure _
  | succ count ih =>
      refine Sound.bind (each offset) fun part _ => ?_
      exact ih part.2 (part.1 :: done)

theorem sound_look {start stop : Nat} {found : Octets → Option α} (ordered : start ≤ stop)
    (inside : ∀ value, found message = some value → stop ≤ message.size)
    (same : ∀ other : Octets, other.size = message.size →
      Stretch.Same message other { start, stop } → found other = found message) :
    Sound message fun octets => look start stop (found octets) := by
  refine ⟨fun value succeeded => ?_, ?_, fun other size agree => ?_⟩
  · refine List.forall_mem_singleton.mpr ⟨ordered, ?_⟩
    cases here : found message with
    | none =>
        rw [here] at succeeded
        cases succeeded
    | some value => exact inside value here
  · exact List.forall_mem_singleton.mpr (nomatch ·)
  · rw [same other size (List.forall_mem_singleton.mp agree)]

theorem uint16At?_of_same {other : Octets} {start stop offset : Nat}
    (same : Stretch.Same message other { start, stop }) (after : start ≤ offset)
    (before : offset + 2 ≤ stop) :
    Octets.uint16At? other offset = Octets.uint16At? message offset := by
  rw [Octets.uint16At?, Octets.uint16At?, same offset after (by dsimp only; omega),
    same (offset + 1) (by dsimp only; omega) (by dsimp only; omega)]

theorem extract_of_same {other : Octets} {start stop : Nat} {guarded : Bool}
    (size : other.size = message.size)
    (same : Stretch.Same message other { start, stop, guarded }) :
    other.extract start stop = message.extract start stop := by
  apply Array.ext_getElem?
  intro index
  rw [Array.getElem?_extract, Array.getElem?_extract, size]
  split
  · next within => exact same (start + index) (Nat.le_add_right start index) (by dsimp only; omega)
  · rfl

theorem sound_octet (offset : Nat) : Sound message fun octets => octet octets offset := by
  refine sound_look (Nat.le_succ offset) (fun value found => ?_) fun other _ same => ?_
  · exact (Array.getElem?_eq_some_iff.mp found).1
  · exact same offset (Nat.le_refl offset) (Nat.lt_succ_self offset)

theorem sound_uint16 (offset : Nat) : Sound message fun octets => uint16 octets offset := by
  refine sound_look (Nat.le_add_right offset 2) (fun value found => ?_) fun other _ same => ?_
  · exact Octets.inside_of_uint16At? found
  · exact uint16At?_of_same same (Nat.le_refl offset) (Nat.le_refl _)

theorem sound_uint32 (offset : Nat) : Sound message fun octets => uint32 octets offset := by
  refine sound_look (Nat.le_add_right offset 4) (fun value found => ?_) fun other _ same => ?_
  · exact Octets.inside_of_uint32At? found
  · dsimp only [Stretch.Same] at same
    rw [Octets.uint32At?, Octets.uint32At?, same offset (by omega) (by omega),
      same (offset + 1) (by omega) (by omega), same (offset + 2) (by omega) (by omega),
      same (offset + 3) (by omega) (by omega)]

theorem sound_slice (offset length : Nat) :
    Sound message fun octets => slice octets offset length := by
  refine sound_look (Nat.le_add_right offset length) (fun value found => ?_)
    fun other size same => ?_
  · unfold Octets.slice? at found
    split at found
    · assumption
    · cases found
  · rw [Octets.slice?, Octets.slice?, size, extract_of_same size same]

theorem sound_extract {start stop : Nat} (ordered : start ≤ stop) (inside : stop ≤ message.size) :
    Sound message fun octets => Scan.extract octets start stop := by
  refine ⟨fun _ _ => ?_, ?_, fun other size same => ?_⟩
  · exact List.forall_mem_singleton.mpr ⟨ordered, inside⟩
  · exact List.forall_mem_singleton.mpr fun _ => ⟨ordered, inside⟩
  · rw [Scan.extract, Scan.extract, extract_of_same size (List.forall_mem_singleton.mp same)]

end Scan

end ZonePropagation
