import Mathlib
import ZonePropagation.Nameserver
/-!
The text form of nameservers.

The last colon of a key stands before the port, and brackets are written only around a host with a
colon; so no two nameservers have the same key.  The key is read as its own nameserver when the
brackets end where they should and the host is not taken for brackets or blanks; any other host
fails, or comes back shorter.
-/

namespace ZonePropagation

namespace Text

variable {mark : Char} {before after text : List Char}

theorem splitFirst?_append (after : List Char) (absent : mark ∉ before) :
    splitFirst? mark (before ++ mark :: after) = some (before, after) := by
  induction before with
  | nil => simp [splitFirst?]
  | cons first rest ih =>
      rw [List.mem_cons, not_or] at absent
      have other : (first == mark) = false := beq_eq_false_iff_ne.mpr (Ne.symm absent.1)
      simp [splitFirst?, other, ih absent.2]

theorem splitFirst?_eq_none (absent : mark ∉ text) : splitFirst? mark text = none := by
  induction text with
  | nil => rfl
  | cons first rest ih =>
      rw [List.mem_cons, not_or] at absent
      have other : (first == mark) = false := beq_eq_false_iff_ne.mpr (Ne.symm absent.1)
      simp [splitFirst?, other, ih absent.2]

theorem splitLast?_append (before : List Char) (absent : mark ∉ after) :
    splitLast? mark (before ++ mark :: after) = some (before, after) := by
  have reversed : (before ++ mark :: after).reverse = after.reverse ++ mark :: before.reverse := by
    simp
  rw [splitLast?, reversed, splitFirst?_append _ (by simpa using absent)]
  simp

/-! ### Numerals -/

theorem numeralValue_of_digits {characters : List Char} (value : Nat)
    (digits : ∀ character ∈ characters, character.isDigit = true) :
    numeralValue value characters = some (Nat.ofDigitChars 10 characters value) := by
  induction characters generalizing value with
  | nil => rfl
  | cons first rest ih =>
      have isDigit := digits first List.mem_cons_self
      have others := ih (10 * value + (first.toNat - 48)) fun character member =>
        digits character (List.mem_cons_of_mem first member)
      rw [numeralValue, digitValue?, if_pos isDigit, Nat.ofDigitChars_cons]
      exact others

theorem numeralValue_eq_none {characters : List Char} {character : Char} (value : Nat)
    (member : character ∈ characters) (other : character.isDigit = false) :
    numeralValue value characters = none := by
  induction characters generalizing value with
  | nil => cases member
  | cons first rest ih =>
      rw [numeralValue, digitValue?]
      rcases List.mem_cons.mp member with rfl | later
      · simp [other]
      · cases isDigit : first.isDigit with
        | false => rfl
        | true => exact ih _ later

theorem digits?_eq_none {characters : List Char} {character : Char}
    (member : character ∈ characters) (other : character.isDigit = false) :
    digits? characters = none := by
  cases characters with
  | nil => cases member
  | cons first rest => exact numeralValue_eq_none 0 member other

theorem uint16?_eq_none {characters : List Char} {character : Char}
    (member : character ∈ characters) (other : character.isDigit = false)
    (unsigned : character ≠ '+') : uint16? (String.ofList characters) = none := by
  unfold uint16? numeral?
  rw [String.toList_ofList]
  split
  · next rest =>
      have later := (List.mem_cons.mp member).resolve_left unsigned
      rw [digits?_eq_none later other]
      rfl
  · rw [digits?_eq_none member other]
    rfl

theorem toDigits_injective : Function.Injective (Nat.toDigits 10) := by
  intro left right same
  calc left = Nat.ofDigitChars 10 (Nat.toDigits 10 left) 0 := Nat.ofDigitChars_ten_toDigits.symm
    _ = Nat.ofDigitChars 10 (Nat.toDigits 10 right) 0 := by rw [same]
    _ = right := Nat.ofDigitChars_ten_toDigits

theorem not_mem_toDigits {value : Nat} {character : Char} (other : character.isDigit = false) :
    character ∉ Nat.toDigits 10 value := by
  intro member
  have digit := Nat.isDigit_of_mem_toDigits (by decide) (by decide) member
  rw [other] at digit
  cases digit

theorem toNat_of_isDigit {character : Char} (digit : character.isDigit = true) :
    48 ≤ character.toNat ∧ character.toNat ≤ 57 := by
  simp only [Char.isDigit, Bool.and_eq_true, decide_eq_true_eq, UInt32.le_iff_toNat_le,
    ge_iff_le] at digit
  exact digit

def portDigits (port : UInt16) : List Char := Nat.toDigits 10 port.toNat

theorem isDigit_of_mem_portDigits {port : UInt16} {character : Char}
    (member : character ∈ portDigits port) : character.isDigit = true :=
  Nat.isDigit_of_mem_toDigits (by decide) (by decide) member

theorem not_mem_portDigits {port : UInt16} {character : Char}
    (other : character.isDigit = false) : character ∉ portDigits port :=
  not_mem_toDigits other

theorem portDigits_injective : Function.Injective portDigits := by
  intro left right same
  exact UInt16.toNat_inj.mp (toDigits_injective same)

theorem toList_toString_port (port : UInt16) : (toString port).toList = portDigits port := by
  change (toString port.toNat).toList = _
  rw [Nat.toString_eq_ofList_toDigits, String.toList_ofList]
  rfl

theorem uint16?_portDigits (port : UInt16) :
    uint16? (String.ofList (portDigits port)) = some port := by
  obtain ⟨first, rest, spelled⟩ := List.exists_cons_of_ne_nil
    (Nat.toDigits_ne_nil : Nat.toDigits 10 port.toNat ≠ [])
  have digits : digits? (portDigits port) = some port.toNat := by
    have value := numeralValue_of_digits 0 fun character (member : character ∈ portDigits port) =>
      isDigit_of_mem_portDigits member
    rw [portDigits, Nat.ofDigitChars_ten_toDigits, spelled] at value
    rw [portDigits, spelled]
    exact value
  have unsigned : first ≠ '+' := by
    rintro rfl
    have member : '+' ∈ portDigits port := by
      rw [portDigits, spelled]
      exact List.mem_cons_self
    exact not_mem_portDigits rfl member
  have bound : port.toNat ≤ 65535 := Nat.le_of_lt_succ port.toNat_lt
  unfold uint16? numeral?
  rw [String.toList_ofList]
  split
  · next rest' signed =>
      rw [portDigits, spelled] at signed
      exact absurd (List.cons.inj signed).1 unsigned
  · rw [digits]
    simp [bound]

/-! ### Blanks -/

theorem isBlank_of_ascii {character : Char} (above : 33 ≤ character.toNat)
    (below : character.toNat ≤ 126) : isBlank character = false := by
  unfold isBlank
  simp only [Bool.or_eq_false_iff, Bool.and_eq_false_iff, decide_eq_false_iff_not,
    beq_eq_false_iff_ne]
  omega

theorem dropEndWhile_append {drops : Char → Bool} {last : Char} (kept : drops last = false)
    (before : List Char) : dropEndWhile drops (before ++ [last]) = before ++ [last] := by
  simp [dropEndWhile, kept]

end Text

namespace Nameserver

open Text

variable {server read : Nameserver}

theorem toList_key (server : Nameserver) :
    server.key.toList = if ':' ∈ server.host.toList
      then '[' :: (server.host.toList ++ ']' :: ':' :: portDigits server.port)
      else server.host.toList ++ ':' :: portDigits server.port := by
  unfold key
  rw [String.contains_char_eq]
  by_cases colon : ':' ∈ server.host.toList
  · simp [colon, String.toList_append, toList_toString_port]
  · simp [colon, String.toList_append, toList_toString_port]

/-! ### Keys tell nameservers apart -/

/-- What stands before the last colon of a key: the host, in brackets if it has a colon. -/
def bracketedHost (host : List Char) : List Char :=
  if ':' ∈ host then '[' :: (host ++ [']']) else host

theorem splitLast?_key (server : Nameserver) :
    splitLast? ':' server.key.toList =
      some (bracketedHost server.host.toList, portDigits server.port) := by
  have spelled : server.key.toList =
      bracketedHost server.host.toList ++ ':' :: portDigits server.port := by
    rw [toList_key, bracketedHost]
    by_cases colon : ':' ∈ server.host.toList
    · simp [colon]
    · simp [colon]
  rw [spelled, splitLast?_append _ (not_mem_portDigits rfl)]

theorem bracketedHost_injective : Function.Injective bracketedHost := by
  have colons : ∀ host, ':' ∈ bracketedHost host ↔ ':' ∈ host := by
    intro host
    unfold bracketedHost
    by_cases colon : ':' ∈ host
    · simp [colon]
    · simp [colon]
  intro left right same
  have together := colons left
  rw [same, colons right] at together
  unfold bracketedHost at same
  by_cases colon : ':' ∈ left
  · rw [if_pos colon, if_pos (together.mpr colon)] at same
    exact List.append_cancel_right (List.cons.inj same).2
  · rw [if_neg colon, if_neg fun other => colon (together.mp other)] at same
    exact same

theorem key_injective : Function.Injective key := by
  intro left right same
  have parts := splitLast?_key left
  rw [same, splitLast?_key right, Option.some_inj, Prod.mk.injEq] at parts
  have sameHost := String.toList_inj.mp (bracketedHost_injective parts.1)
  have samePort := portDigits_injective parts.2
  cases left
  cases right
  simp only at sameHost samePort
  rw [sameHost, samePort]

/-! ### Reading keys -/

/-- The key of the server is written so that it can be read as the server: brackets around a host
with a colon end at the first closing bracket, and no other host begins with an opening bracket or
a blank. -/
def Legible (server : Nameserver) : Prop :=
  (':' ∈ server.host.toList ∧ ']' ∉ server.host.toList) ∨
    (':' ∉ server.host.toList ∧
      ∀ first ∈ server.host.toList.head?, first ≠ '[' ∧ isBlank first = false)

instance (server : Nameserver) : Decidable server.Legible :=
  decidable_of_iff
    ((':' ∈ server.host.toList ∧ ']' ∉ server.host.toList) ∨
      (':' ∉ server.host.toList ∧
        (server.host.toList.head?.all fun first => first != '[' && !isBlank first) = true)) <| by
    simp [Legible, Option.all_eq_true]

theorem withPort?_portDigits (host : List Char) (port : UInt16) :
    withPort? host (portDigits port) = some ⟨String.ofList host, port⟩ := by
  rw [withPort?, uint16?_portDigits]
  rfl

/-- Only the port of a key is read without its brackets, so a bracket in the port fails. -/
theorem withPort?_eq_none (host : List Char) {port : List Char} (bracket : ']' ∈ port) :
    withPort? host port = none := by
  rw [withPort?, uint16?_eq_none bracket rfl (by decide)]
  rfl

theorem ofBracketed?_eq_some {rest : List Char} (found : ofBracketed? rest = some read) :
    ∃ after, splitFirst? ']' rest = some (read.host.toList, after) := by
  unfold ofBracketed? at found
  split at found
  · cases found
  · next host split =>
      cases found
      exact ⟨[], by rw [split, String.toList_ofList]⟩
  · next host port split =>
      unfold withPort? at found
      obtain ⟨number, -, rfl⟩ := Option.map_eq_some_iff.mp found
      exact ⟨':' :: port, by rw [split, String.toList_ofList]⟩
  · cases found

theorem isBlank_of_isDigit {character : Char} (digit : character.isDigit = true) :
    isBlank character = false := by
  obtain ⟨above, below⟩ := toNat_of_isDigit digit
  exact isBlank_of_ascii (by omega) (by omega)

theorem toList_trim_key (server : Nameserver) :
    (Text.trim server.key).toList = server.key.toList.dropWhile isBlank := by
  obtain ⟨before, last, digits⟩ : ∃ before last, portDigits server.port = before ++ [last] :=
    ⟨_, _, (List.dropLast_concat_getLast (Nat.toDigits_ne_nil : portDigits server.port ≠ [])).symm⟩
  have member : last ∈ portDigits server.port := by simp [digits]
  have kept : isBlank last = false := isBlank_of_isDigit (isDigit_of_mem_portDigits member)
  have ends : ∃ start, server.key.toList = start ++ [last] := by
    rw [toList_key, digits]
    by_cases colon : ':' ∈ server.host.toList
    · exact ⟨'[' :: (server.host.toList ++ ']' :: ':' :: before), by simp [colon]⟩
    · exact ⟨server.host.toList ++ ':' :: before, by simp [colon]⟩
  obtain ⟨start, spelled⟩ := ends
  rw [Text.trim, String.toList_ofList, spelled, List.dropWhile_append]
  split
  · rw [List.dropWhile_cons_of_neg (by simp [kept])]
    exact dropEndWhile_append kept []
  · exact dropEndWhile_append kept _

theorem ofText?_key_of_colon (colon : ':' ∈ server.host.toList) :
    ofText? server.key =
      ofBracketed? (server.host.toList ++ ']' :: ':' :: portDigits server.port) := by
  have opened : server.key.toList.dropWhile isBlank = server.key.toList := by
    rw [toList_key, if_pos colon]
    exact List.dropWhile_cons_of_neg (by decide)
  rw [ofText?, toList_trim_key, opened, toList_key, if_pos colon]
  rfl

theorem dropWhile_isBlank_colon (host rest : List Char) :
    (host ++ ':' :: rest).dropWhile isBlank = host.dropWhile isBlank ++ ':' :: rest := by
  induction host with
  | nil => exact List.dropWhile_cons_of_neg (by decide)
  | cons first others ih =>
      rw [List.cons_append, List.dropWhile_cons, List.dropWhile_cons]
      split
      · exact ih
      · rfl

theorem ofPlain?_port {host : List Char} (colon : ':' ∉ host) (port : UInt16) :
    ofPlain? (host ++ ':' :: portDigits port) = some ⟨String.ofList host, port⟩ := by
  rw [ofPlain?, splitLast?_append _ (not_mem_portDigits rfl)]
  simp [colon, withPort?_portDigits]

/-- A key without brackets is read from its first character that is not blank, and an opening
bracket there is taken for one of the key. -/
theorem ofText?_key_of_no_colon (colon : ':' ∉ server.host.toList) :
    (∀ inner, server.host.toList.dropWhile isBlank = '[' :: inner →
        ofText? server.key = ofBracketed? (inner ++ ':' :: portDigits server.port)) ∧
      ((server.host.toList.dropWhile isBlank).head? ≠ some '[' → ofText? server.key =
        some ⟨String.ofList (server.host.toList.dropWhile isBlank), server.port⟩) := by
  have shownColon : ':' ∉ server.host.toList.dropWhile isBlank := fun member =>
    colon ((List.dropWhile_sublist isBlank).subset member)
  rw [ofText?, toList_trim_key, toList_key, if_neg colon, dropWhile_isBlank_colon]
  generalize server.host.toList.dropWhile isBlank = shown at shownColon
  have plain := ofPlain?_port shownColon server.port
  constructor
  · rintro inner rfl
    rfl
  · intro unopened
    cases shown with
    | nil => exact plain
    | cons first rest =>
        rw [List.head?_cons, Ne, Option.some_inj] at unopened
        split
        · next empty => cases empty
        · next opened => exact absurd (List.cons.inj opened).1 unopened
        · exact plain

/-- Brackets around a host end at the first closing bracket, and the port must follow there. -/
theorem ofBracketed?_port (host : List Char) (port : UInt16) :
    ofBracketed? (host ++ ']' :: ':' :: portDigits port) =
      if ']' ∈ host then none else some ⟨String.ofList host, port⟩ := by
  by_cases bracket : ']' ∈ host
  · obtain ⟨before, after, rfl, absent⟩ := List.eq_append_cons_of_mem bracket
    rw [if_pos bracket, List.append_assoc, List.cons_append, ofBracketed?,
      splitFirst?_append _ absent]
    cases after with
    | nil => rfl
    | cons first rest =>
        by_cases colon : first = ':'
        · subst colon
          exact withPort?_eq_none before (by simp)
        · simp [colon]
  · rw [if_neg bracket, ofBracketed?, splitFirst?_append _ bracket]
    exact withPort?_portDigits host port

/-- What is read after an opening bracket that belongs to the host is shorter than the rest of the
host. -/
theorem shorter_of_ofBracketed? {inner : List Char} {port : UInt16}
    (found : ofBracketed? (inner ++ ':' :: portDigits port) = some read) :
    read.host.toList.length < inner.length := by
  obtain ⟨after, split⟩ := ofBracketed?_eq_some found
  have outside : ']' ∉ ':' :: portDigits port := by
    rw [List.mem_cons, not_or]
    exact ⟨by decide, not_mem_portDigits rfl⟩
  by_cases bracket : ']' ∈ inner
  · obtain ⟨before, rest, rfl, absent⟩ := List.eq_append_cons_of_mem bracket
    rw [List.append_assoc, List.cons_append, splitFirst?_append _ absent, Option.some_inj,
      Prod.mk.injEq] at split
    rw [← split.1, List.length_append, List.length_cons]
    omega
  · rw [splitFirst?_eq_none fun member => (List.mem_append.mp member).elim bracket outside] at split
    cases split

theorem legible_of_no_colon (colon : ':' ∉ server.host.toList) :
    server.Legible ↔ ∀ first ∈ server.host.toList.head?, first ≠ '[' ∧ isBlank first = false := by
  simp [Legible, colon]

theorem dropWhile_isBlank_eq_self_iff (host : List Char) :
    host.dropWhile isBlank = host ↔ ∀ first ∈ host.head?, isBlank first = false := by
  rw [List.dropWhile_eq_self_iff]
  cases host with
  | nil => simp
  | cons first rest => simp

theorem eq_or_shorter_of_ofText?_key (found : ofText? server.key = some read) :
    read = server ∧ server.Legible ∨
      read.host.toList.length < server.host.toList.length ∧ ¬ server.Legible := by
  by_cases colon : ':' ∈ server.host.toList
  · rw [ofText?_key_of_colon colon, ofBracketed?_port] at found
    by_cases bracket : ']' ∈ server.host.toList
    · rw [if_pos bracket] at found
      cases found
    · rw [if_neg bracket, String.ofList_toList] at found
      cases found
      exact .inl ⟨rfl, .inl ⟨colon, bracket⟩⟩
  · obtain ⟨bracketed, plain⟩ := ofText?_key_of_no_colon colon
    rw [legible_of_no_colon colon]
    have suffix := List.dropWhile_suffix isBlank (l := server.host.toList)
    have untrimmed : (∀ first ∈ server.host.toList.head?, first ≠ '[' ∧ isBlank first = false) →
        server.host.toList.dropWhile isBlank = server.host.toList := fun legible =>
      (dropWhile_isBlank_eq_self_iff _).mpr fun first member => (legible first member).2
    by_cases opened : (server.host.toList.dropWhile isBlank).head? = some '['
    · obtain ⟨inner, shown⟩ := List.head?_eq_some_iff.mp opened
      rw [bracketed inner shown] at found
      have shorter := shorter_of_ofBracketed? found
      have within := suffix.length_le
      rw [shown, List.length_cons] at within
      refine .inr ⟨by omega, fun legible => ?_⟩
      rw [untrimmed legible] at opened
      exact (legible '[' opened).1 rfl
    · rw [plain opened] at found
      cases found
      by_cases same : server.host.toList.dropWhile isBlank = server.host.toList
      · rw [same] at opened ⊢
        rw [String.ofList_toList]
        refine .inl ⟨rfl, fun first member => ⟨?_, ?_⟩⟩
        · rintro rfl
          exact opened member
        · exact (dropWhile_isBlank_eq_self_iff _).mp same first member
      · rw [String.toList_ofList]
        have shorter := Nat.lt_of_le_of_ne suffix.length_le fun equal =>
          same (suffix.eq_of_length equal)
        exact .inr ⟨shorter, fun legible => same (untrimmed legible)⟩

theorem ofText?_key_eq_some_self_iff (server : Nameserver) :
    ofText? server.key = some server ↔ server.Legible := by
  constructor
  · intro found
    rcases eq_or_shorter_of_ofText?_key found with ⟨-, legible⟩ | ⟨shorter, -⟩
    · exact legible
    · exact absurd shorter (Nat.lt_irrefl _)
  · rintro (⟨colon, bracket⟩ | ⟨colon, start⟩)
    · rw [ofText?_key_of_colon colon, ofBracketed?_port, if_neg bracket, String.ofList_toList]
    · have same := (dropWhile_isBlank_eq_self_iff _).mpr fun first member => (start first member).2
      have unopened : server.host.toList.head? ≠ some '[' := fun opened =>
        (start '[' opened).1 rfl
      have plain := (ofText?_key_of_no_colon colon).2
      rw [same, String.ofList_toList] at plain
      exact plain unopened

/-- A key belongs to one nameserver only, and is read back just for hosts that have a colon and no
closing bracket, or no colon and neither an opening bracket nor a blank in front. -/
theorem key_unique_and_read_back_iff :
    Function.Injective key ∧ ∀ (host : String) (port : UInt16),
      ofText? (key ⟨host, port⟩) = some ⟨host, port⟩ ↔
        (host.contains ':' = true ∧ host.contains ']' = false) ∨
          (host.contains ':' = false ∧ host.toList.head? ≠ some '[' ∧
            ∀ first, host.toList.head? = some first → isBlank first = false) := by
  constructor
  · exact key_injective
  · intro host port
    have bracketed : (':' ∈ host.toList ∧ ']' ∉ host.toList) ↔
        (host.contains ':' = true ∧ host.contains ']' = false) := by
      rw [String.contains_char_eq, String.contains_char_eq]
      simp
    have plain : (':' ∉ host.toList ∧
          ∀ first ∈ host.toList.head?, first ≠ '[' ∧ isBlank first = false) ↔
        (host.contains ':' = false ∧ host.toList.head? ≠ some '[' ∧
          ∀ first, host.toList.head? = some first → isBlank first = false) := by
      rw [String.contains_char_eq]
      cases host.toList with
      | nil => simp
      | cons first rest => simp
    rw [ofText?_key_eq_some_self_iff, Legible]
    exact or_congr bracketed plain

end Nameserver

end ZonePropagation
