import ZonePropagation.Proofs.Name.Spelling
/-!
The course of a reader through a name.

In each turn a reader takes one label or follows one pointer, forward or backward, or it ends.
Nothing but its two limits keeps it from going round for ever, and with them it ends on every
message: after at most 64 pointers and 127 labels.  It takes a name for a loop exactly when the
message leads it, through labels that it accepts and 64 pointers, to one more pointer.
-/

namespace ZonePropagation.Name

open Octets (Holds ofText)

variable {message : Octets} {position pointers stop : Nat} {labels : List String}

/-! ### Ways through a message -/

/-- From a position the message leads to another one, through the labels and the number of
pointers.  Either may stand before or after the other, and be passed any number of times. -/
inductive Leads (message : Octets) :
    (position : Nat) → (labels : List String) → (pointers stop : Nat) → Prop where
  | here {position : Nat} : Leads message position [] 0 position
  | label {position pointers stop : Nat} {first : UInt8} {label : String} {labels : List String}
      (size : message[position]? = some first)
      (nonempty : 1 ≤ first.toNat) (short : first.toNat ≤ 63)
      (filled : label.utf8ByteSize = first.toNat)
      (spelled : Holds message (position + 1) (ofText label))
      (rest : Leads message (position + 1 + first.toNat) labels pointers stop) :
      Leads message position (label :: labels) pointers stop
  | pointer {position pointers stop : Nat} {high low : UInt8} {labels : List String}
      (upper : message[position]? = some high) (flagged : 192 ≤ high.toNat)
      (lower : message[position + 1]? = some low)
      (target : Leads message ((high.toNat - 192) * 256 + low.toNat) labels pointers stop) :
      Leads message position labels (pointers + 1) stop

def PointerAt (message : Octets) (position : Nat) : Prop :=
  ∃ high low, message[position]? = some high ∧ 192 ≤ high.toNat ∧ message[position + 1]? = some low

theorem Leads.labels_le (leads : Leads message position labels pointers stop) :
    2 * labels.length ≤ octetCount labels := by
  induction leads with
  | here => exact Nat.le_refl 0
  | label size nonempty short filled spelled rest ih =>
      rw [List.length_cons, octetCount_cons]
      omega
  | pointer upper flagged lower target ih => exact ih

/-! ### Turns -/

/-- Where a reader is within a name: the labels that it has taken, its position, the position after
the name once it has followed a pointer, the number of pointers that it has followed, and the octets
of its labels with their length octets. -/
structure Course where
  labels : List String := []
  position : Nat
  resumed : Option Nat := none
  followed : Nat := 0
  taken : Nat := 0

inductive Turn where
  | on (course : Course)
  | ends (outcome : Except MessageError (List String × Nat))

namespace Course

/-- The course after a pointer.  Only the first one tells where the name ends. -/
def follow (course : Course) (target : Nat) : Course :=
  { course with
    position := target
    resumed := some (course.resumed.getD (course.position + 2))
    followed := course.followed + 1 }

def take (course : Course) (label : String) (length : Nat) : Course :=
  { course with
    labels := course.labels ++ [label]
    position := course.position + 1 + length
    taken := course.taken + (length + 1) }

def turn (message : Octets) (course : Course) : Turn :=
  match message[course.position]? with
  | none => .ends (.error .truncated)
  | some first =>
      if first &&& 0xC0 == 0xC0 then
        match message[course.position + 1]? with
        | none => .ends (.error .truncated)
        | some second =>
            if course.followed + 1 > maxPointers then .ends (.error .compressionLoop)
            else .on (course.follow (pointerTarget first second))
      else if first &&& 0xC0 != 0 then .ends (.error .label)
      else if first.toNat = 0 then
        .ends (.ok (course.labels, course.resumed.getD (course.position + 1)))
      else
        match Octets.slice? message (course.position + 1) first.toNat with
        | none => .ends (.error .truncated)
        | some octets =>
            if course.taken + (first.toNat + 1) > maxNameOctets then .ends (.error .label)
            else
              match Octets.text? octets with
              | none => .ends (.error .label)
              | some label => .on (course.take label first.toNat)

inductive Reaches (message : Octets) : Course → Nat → Course → Prop where
  | here {course : Course} : Reaches message course 0 course
  | turn {course later last : Course} {turns : Nat} (goesOn : course.turn message = .on later)
      (rest : Reaches message later turns last) : Reaches message course (turns + 1) last

structure Within (course : Course) : Prop where
  followed : course.followed ≤ maxPointers
  taken : course.taken ≤ maxNameOctets

variable {course later last : Course} {turns : Nat}

theorem turn_pointer {high low : UInt8} (upper : message[course.position]? = some high)
    (flagged : 192 ≤ high.toNat) (lower : message[course.position + 1]? = some low) :
    course.turn message =
      if course.followed + 1 > maxPointers then .ends (.error .compressionLoop)
      else .on (course.follow ((high.toNat - 192) * 256 + low.toNat)) := by
  rw [turn, upper]
  simp only [(flagged_iff high).mpr flagged, if_true]
  rw [lower, ← pointerTarget_eq high low flagged]

theorem turn_label {first : UInt8} {label : String}
    (size : message[course.position]? = some first) (nonempty : 1 ≤ first.toNat)
    (short : first.toNat ≤ 63) (filled : label.utf8ByteSize = first.toNat)
    (spelled : Holds message (course.position + 1) (ofText label)) :
    course.turn message =
      if course.taken + (first.toNat + 1) > maxNameOctets then .ends (.error .label)
      else .on (course.take label first.toNat) := by
  have text : Octets.text? (ofText label).toArray = some label := Octets.text?_eq_some_iff.mpr rfl
  rw [turn, size]
  simp only [plain_of_short short, (unflagged_iff first).mpr short, Bool.false_eq_true, if_false]
  rw [if_neg (by omega), slice?_label nonempty filled spelled]
  dsimp only
  rw [text]

theorem turn_on_cases (goesOn : course.turn message = .on later) :
    (∃ high low, message[course.position]? = some high ∧ 192 ≤ high.toNat ∧
      message[course.position + 1]? = some low ∧ course.followed + 1 ≤ maxPointers ∧
      later = course.follow ((high.toNat - 192) * 256 + low.toNat)) ∨
    ∃ first label, message[course.position]? = some first ∧ 1 ≤ first.toNat ∧ first.toNat ≤ 63 ∧
      label.utf8ByteSize = first.toNat ∧ Holds message (course.position + 1) (ofText label) ∧
      course.taken + (first.toNat + 1) ≤ maxNameOctets ∧ later = course.take label first.toNat := by
  unfold turn at goesOn
  split at goesOn
  · cases goesOn
  next first size =>
  split at goesOn
  · next pointer =>
    have flagged := (flagged_iff first).mp pointer
    split at goesOn
    · cases goesOn
    next second lower =>
    split at goesOn
    · cases goesOn
    next few =>
    cases goesOn
    exact .inl ⟨first, second, size, flagged, lower, Nat.le_of_not_lt few,
      by rw [pointerTarget_eq first second flagged]⟩
  split at goesOn
  · cases goesOn
  next unflagged =>
  split at goesOn
  · cases goesOn
  next nonempty =>
  split at goesOn
  · cases goesOn
  next octets slice =>
  split at goesOn
  · cases goesOn
  next fits =>
  split at goesOn
  · cases goesOn
  next label text =>
  cases goesOn
  have short := (unflagged_iff first).mp (by simpa using unflagged)
  obtain ⟨filled, spelled⟩ := holds_of_label slice text
  exact .inr ⟨first, label, size, by omega, short, filled, spelled, Nat.le_of_not_lt fits, rfl⟩

theorem turn_loop (ended : course.turn message = .ends (.error .compressionLoop)) :
    PointerAt message course.position ∧ maxPointers ≤ course.followed := by
  unfold turn at ended
  split at ended
  · cases ended
  next first upper =>
  split at ended
  · next pointer =>
    split at ended
    · cases ended
    next second lower =>
    split at ended
    · next many =>
      exact ⟨⟨first, second, upper, (flagged_iff first).mp pointer, lower⟩,
        Nat.le_of_lt_succ many⟩
    · cases ended
  repeat' split at ended
  all_goals cases ended

/-! ### Runs -/

theorem Within.turn (within : course.Within) (goesOn : course.turn message = .on later) :
    later.Within := by
  rcases turn_on_cases goesOn with
    ⟨high, low, -, -, -, few, rfl⟩ | ⟨first, label, -, -, -, -, -, fits, rfl⟩
  · exact ⟨few, within.taken⟩
  · exact ⟨within.followed, fits⟩

theorem Reaches.within (reached : Reaches message course turns last) (within : course.Within) :
    last.Within := by
  induction reached with
  | here => exact within
  | turn goesOn rest ih => exact ih (within.turn goesOn)

theorem Reaches.leads (reached : Reaches message course turns last) :
    ∃ labels pointers, Leads message course.position labels pointers last.position ∧
      last.labels = course.labels ++ labels ∧ last.followed = course.followed + pointers ∧
      last.taken = course.taken + octetCount labels ∧ turns = pointers + labels.length := by
  induction reached with
  | here => exact ⟨[], 0, .here, by simp, rfl, rfl, rfl⟩
  | turn goesOn rest ih =>
      obtain ⟨labels, pointers, way, passed, followed, taken, count⟩ := ih
      rcases turn_on_cases goesOn with ⟨high, low, upper, flagged, lower, -, rfl⟩ |
        ⟨first, label, size, nonempty, short, filled, spelled, -, rfl⟩
      · dsimp only [follow] at way passed followed taken
        exact ⟨labels, pointers + 1, .pointer upper flagged lower way, passed, by omega, taken,
          by omega⟩
      · dsimp only [take] at way passed followed taken
        refine ⟨label :: labels, pointers, .label size nonempty short filled spelled way, ?_,
          followed, ?_, ?_⟩
        · rw [passed, List.append_assoc, List.singleton_append]
        · rw [octetCount_cons]
          omega
        · rw [List.length_cons]
          omega

theorem exists_reaches_of_leads (course : Course)
    (way : Leads message course.position labels pointers stop)
    (few : course.followed + pointers ≤ maxPointers)
    (fits : course.taken + octetCount labels ≤ maxNameOctets) :
    ∃ turns last, Reaches message course turns last ∧ last.position = stop ∧
      last.followed = course.followed + pointers := by
  generalize atStart : course.position = start at way
  induction way generalizing course with
  | here => exact ⟨0, course, .here, atStart, rfl⟩
  | label size nonempty short filled spelled rest ih =>
      rw [octetCount_cons] at fits
      subst atStart
      have goesOn := turn_label size nonempty short filled spelled
      rw [if_neg (by omega)] at goesOn
      obtain ⟨turns, last, reached, arrived, followed⟩ :=
        ih (course.take _ _) few (by dsimp only [take]; omega) rfl
      exact ⟨turns + 1, last, .turn goesOn reached, arrived, followed⟩
  | pointer upper flagged lower target ih =>
      subst atStart
      have goesOn := turn_pointer upper flagged lower
      rw [if_neg (by omega)] at goesOn
      obtain ⟨turns, last, reached, arrived, followed⟩ :=
        ih (course.follow _) (by dsimp only [follow]; omega) fits rfl
      dsimp only [follow] at followed
      exact ⟨turns + 1, last, .turn goesOn reached, arrived, by omega⟩

/-! ### Outcomes -/

def outcome (message : Octets) (course : Course) : Except MessageError (List String × Nat) :=
  (readRest message course.position (maxPointers - course.followed)
    (maxNameOctets - course.taken)).map
      fun rest => (course.labels ++ rest.1, course.resumed.getD rest.2)

theorem outcome_of_on (goesOn : course.turn message = .on later) :
    course.outcome message = later.outcome message := by
  rcases turn_on_cases goesOn with ⟨high, low, upper, flagged, lower, few, rfl⟩ |
    ⟨first, label, size, nonempty, short, filled, spelled, fits, rfl⟩
  · obtain ⟨fewer, left⟩ : ∃ fewer, maxPointers - course.followed = fewer + 1 :=
      ⟨maxPointers - course.followed - 1, by omega⟩
    have after : maxPointers - (course.followed + 1) = fewer := by omega
    rw [outcome, outcome, readRest_pointer upper flagged lower, left]
    dsimp only [follow]
    rw [after]
    cases readRest message ((high.toNat - 192) * 256 + low.toNat) fewer
      (maxNameOctets - course.taken) <;> rfl
  · have after : maxNameOctets - (course.taken + (first.toNat + 1)) =
        maxNameOctets - course.taken - (first.toNat + 1) := by omega
    rw [outcome, outcome, readRest_label size nonempty filled short spelled, if_pos (by omega)]
    dsimp only [take]
    rw [after]
    cases readRest message (course.position + 1 + first.toNat) (maxPointers - course.followed)
      (maxNameOctets - course.taken - (first.toNat + 1)) with
    | error cause => rfl
    | ok rest => simp [Except.map]

theorem outcome_of_ends {result : Except MessageError (List String × Nat)}
    (ended : course.turn message = .ends result) : course.outcome message = result := by
  rw [turn] at ended
  rw [outcome, readRest]
  rcases Option.eq_none_or_eq_some message[course.position]? with missing | ⟨first, size⟩
  · rw [missing] at ended ⊢
    cases ended
    rfl
  rw [size] at ended ⊢
  dsimp only at ended ⊢
  by_cases pointer : first &&& 0xC0 == 0xC0
  · rw [if_pos pointer] at ended ⊢
    rcases Option.eq_none_or_eq_some message[course.position + 1]? with missing | ⟨second, lower⟩
    · rw [missing] at ended ⊢
      cases ended
      rfl
    rw [lower] at ended ⊢
    dsimp only at ended ⊢
    by_cases many : course.followed + 1 > maxPointers
    · have noMore : maxPointers - course.followed = 0 := by omega
      rw [if_pos many] at ended
      cases ended
      rw [noMore]
      rfl
    · rw [if_neg many] at ended
      cases ended
  rw [if_neg pointer] at ended ⊢
  by_cases reserved : first &&& 0xC0 != 0
  · rw [if_pos reserved] at ended ⊢
    cases ended
    rfl
  rw [if_neg reserved] at ended ⊢
  by_cases empty : first.toNat = 0
  · rw [if_pos empty] at ended
    rw [dif_pos empty]
    cases ended
    simp [Except.map]
  rw [if_neg empty] at ended
  rw [dif_neg empty]
  rcases Option.eq_none_or_eq_some (Octets.slice? message (course.position + 1) first.toNat)
    with missing | ⟨octets, slice⟩
  · rw [missing] at ended ⊢
    cases ended
    rfl
  rw [slice] at ended ⊢
  dsimp only at ended ⊢
  by_cases long : course.taken + (first.toNat + 1) > maxNameOctets
  · rw [if_pos long] at ended
    rw [dif_neg (by omega)]
    cases ended
    rfl
  rw [if_neg long] at ended
  rw [dif_pos (by omega)]
  rcases Option.eq_none_or_eq_some (Octets.text? octets) with illegible | ⟨label, text⟩
  · rw [illegible] at ended ⊢
    cases ended
    rfl
  · rw [text] at ended
    cases ended

theorem Reaches.outcome_eq (reached : Reaches message course turns last) :
    course.outcome message = last.outcome message := by
  induction reached with
  | here => rfl
  | turn goesOn rest ih => exact (outcome_of_on goesOn).trans ih

def left (course : Course) : Nat :=
  (maxPointers - course.followed) + (maxNameOctets - course.taken)

theorem left_lt (goesOn : course.turn message = .on later) : later.left < course.left := by
  rcases turn_on_cases goesOn with
    ⟨high, low, -, -, -, few, rfl⟩ | ⟨first, label, -, -, -, -, -, fits, rfl⟩
  · dsimp only [left, follow]
    omega
  · dsimp only [left, take]
    omega

theorem exists_end (message : Octets) (course : Course) :
    ∃ turns last, Reaches message course turns last ∧
      last.turn message = .ends (course.outcome message) := by
  cases here : course.turn message with
  | ends result =>
      rw [outcome_of_ends here]
      exact ⟨0, course, .here, here⟩
  | on later =>
      have fewer := left_lt here
      obtain ⟨turns, last, reached, ended⟩ := exists_end message later
      rw [outcome_of_on here]
      exact ⟨turns + 1, last, .turn here reached, ended⟩
termination_by course.left

def start (position : Nat) : Course := { position }

theorem outcome_start (message : Octets) (position : Nat) :
    (start position).outcome message = read message position := by
  change (read message position).map (fun rest => ([] ++ rest.1, rest.2)) = read message position
  cases read message position <;> rfl

theorem within_start (position : Nat) : (start position).Within :=
  ⟨Nat.zero_le _, Nat.zero_le _⟩

theorem Reaches.leads_start (reached : Reaches message (start position) turns course) :
    Leads message position course.labels course.followed course.position ∧
      course.followed ≤ 64 ∧ octetCount course.labels ≤ 255 ∧
      turns = course.followed + course.labels.length := by
  obtain ⟨labels, pointers, way, passed, followed, taken, count⟩ := reached.leads
  obtain ⟨few, fits⟩ := reached.within (within_start position)
  simp only [start, List.nil_append, Nat.zero_add] at passed followed taken way
  subst passed followed
  rw [taken] at fits
  exact ⟨way, few, fits, count⟩

end Course

open Course (Reaches start)

/-- A reader takes a name for a loop just if it is led, within its limits, to one pointer more. -/
theorem read_loop_iff : read message position = .error .compressionLoop ↔
    ∃ labels stop, Leads message position labels 64 stop ∧ octetCount labels ≤ 255 ∧
      PointerAt message stop := by
  constructor
  · intro looped
    obtain ⟨turns, last, reached, ended⟩ := Course.exists_end message (start position)
    rw [Course.outcome_start, looped] at ended
    obtain ⟨atPointer, many⟩ := Course.turn_loop ended
    obtain ⟨way, few, fits, -⟩ := reached.leads_start
    have all : last.followed = 64 := Nat.le_antisymm few many
    rw [all] at way
    exact ⟨last.labels, last.position, way, fits, atPointer⟩
  · rintro ⟨labels, stop, way, fits, high, low, upper, flagged, lower⟩
    obtain ⟨turns, last, reached, rfl, followed⟩ := Course.exists_reaches_of_leads
      (start position) way (Nat.le_refl 64) (by rwa [start, Nat.zero_add])
    have many : last.followed = 64 := followed
    have ended := Course.turn_pointer upper flagged lower
    rw [many, if_pos (by decide)] at ended
    rw [← Course.outcome_start, reached.outcome_eq, Course.outcome_of_ends ended]

/-- A reader ends on every message, wherever it begins and however the pointers lead it.  On its way
it follows at most 64 pointers and takes at most 127 labels, one or the other in each turn, and its
last turn gives what is read.  This is a loop just if the message leads through labels that have few
enough octets and through 64 pointers to another pointer. -/
theorem reader_ends_and_loops_iff (message : Octets) (position : Nat) :
    (∃ turns last, Reaches message (start position) turns last ∧
      last.turn message = .ends (read message position)) ∧
    (∀ turns course, Reaches message (start position) turns course →
      course.followed ≤ 64 ∧ course.labels.length ≤ 127 ∧
        turns = course.followed + course.labels.length) ∧
    (read message position = .error .compressionLoop ↔ ∃ labels stop,
      Leads message position labels 64 stop ∧ octetCount labels ≤ 255 ∧
        PointerAt message stop) := by
  obtain ⟨turns, last, reached, ended⟩ := Course.exists_end message (start position)
  rw [Course.outcome_start] at ended
  refine ⟨⟨turns, last, reached, ended⟩, fun turns course reached => ?_, read_loop_iff⟩
  obtain ⟨way, few, fits, count⟩ := reached.leads_start
  have short := way.labels_le
  exact ⟨few, by omega, count⟩

private theorem leads_round (rounds : Nat) :
    Leads #[1, 97, 192, 0] 0 (List.replicate (rounds + 1) "a") rounds 2 := by
  induction rounds with
  | zero => exact .label rfl (by decide) (by decide) (by decide) (by decide) .here
  | succ rounds ih =>
      exact .label rfl (by decide) (by decide) (by decide) (by decide)
        (.pointer rfl (by decide) rfl ih)

theorem reader_ends_and_loops_iff_round : read #[1, 97, 192, 0] 0 = .error .compressionLoop :=
  (reader_ends_and_loops_iff _ 0).2.2.mpr
    ⟨_, 2, leads_round 64, by decide, 192, 0, rfl, by decide, rfl⟩

end ZonePropagation.Name
