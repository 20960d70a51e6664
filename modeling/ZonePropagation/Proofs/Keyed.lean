import Mathlib
/-!
Lists whose entries differ in a key.
-/

namespace ZonePropagation

variable {α β : Type} {items : List α} {item : α} {key : α → β} {given : β}

theorem nodup_keys_concat :
    ((items ++ [item]).map key).Nodup ↔ key item ∉ items.map key ∧ (items.map key).Nodup := by
  rw [List.map_append, List.map_singleton, ← List.concat_eq_append, List.nodup_concat]

variable [DecidableEq β]

theorem find?_key_eq_some_iff (distinct : (items.map key).Nodup) :
    (items.find? fun other => key other == given) = some item ↔
      item ∈ items ∧ key item = given := by
  constructor
  · intro found
    exact ⟨List.mem_of_find?_eq_some found, by simpa using List.find?_some found⟩
  · intro here
    obtain ⟨member, own⟩ := here
    cases found : items.find? fun other => key other == given with
    | none =>
        have tested := List.find?_eq_none.mp found item member
        rw [own, beq_self_eq_true] at tested
        exact absurd rfl tested
    | some other =>
        have sameKey : key other = given := by simpa using List.find?_some found
        have listed := List.mem_of_find?_eq_some found
        rw [List.inj_on_of_nodup_map distinct listed member (sameKey.trans own.symm)]

theorem filter_ne_of_fresh (fresh : given ∉ items.map key) :
    (items.filter fun other => key other != given) = items := by
  rw [List.filter_eq_self]
  intro other member
  rw [bne_iff_ne]
  intro same
  exact fresh (List.mem_map.mpr ⟨other, member, same⟩)

end ZonePropagation
