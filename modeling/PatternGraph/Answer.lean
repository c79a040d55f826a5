/-
This file takes apart an answer that was made from another one. A question that is answered in parts
has no answer if one of its parts has none, so whoever has the answer has those of all its parts.
-/

namespace PatternGraph

variable {ε α β : Type} {given : Except ε α} {made : β}

theorem exists_of_map_eq_ok {change : α → β} (whole : given.map change = .ok made) :
    ∃ part, given = .ok part ∧ change part = made := by
  cases given with
  | error refusal => cases whole
  | ok part => exact ⟨part, rfl, Except.ok.inj whole⟩

theorem exists_of_bind_eq_ok {next : α → Except ε β} (whole : given.bind next = .ok made) :
    ∃ part, given = .ok part ∧ next part = .ok made := by
  cases given with
  | error refusal => cases whole
  | ok part => exact ⟨part, rfl, whole⟩

theorem exists_of_isSome_toOption (answered : given.toOption.isSome) :
    ∃ part, given = .ok part := by
  cases given with
  | error refusal => cases answered
  | ok part => exact ⟨part, rfl⟩

end PatternGraph
