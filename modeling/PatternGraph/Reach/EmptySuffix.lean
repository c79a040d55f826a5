/-
This file answers whether nothing from a state on can consume input before the final state. The walk
passes over lookarounds and visits what remains; the first state that is entered by anything but an
empty step decides against. A state counts also when the walk starts at it.
-/

import PatternGraph.Reach.EndAnchor

namespace PatternGraph.Automaton

/-- Visits the given states in order, those that follow one directly after it, until one of them is
entered by more than an empty step. -/
def walkEmptySuffix (automaton : Automaton) (visited pending : List StateId) : Except Fault Bool :=
  match pending with
  | [] => .ok true
  | id :: rest =>
    match automaton.transition id with
    | .error fault => .error fault
    | .ok transition =>
      if _settled : automaton.isFinal id = true ∨ visited.contains id = true then
        walkEmptySuffix automaton visited rest
      else if transition ≠ .epsilon then .ok false
      else
        match _found : automaton.visitsPast id with
        | .error fault => .error fault
        | .ok visits =>
          walkEmptySuffix automaton (id :: visited) (visits.map Visit.state ++ rest)
termination_by automaton.unexplored automaton.visitsPastCount visited.contains + pending.length
decreasing_by
  · simp
  · have shrinks := unexplored_cons_le automaton.visitsPastCount
      (Bool.eq_false_iff.mpr fun seen => _settled (Or.inr seen))
      (mem_ids_of_visitsPast _found)
    rw [visitsPastCount_of_visitsPast _found] at shrinks
    simp only [List.length_append, List.length_map, List.length_cons]
    omega

/-- Whether nothing from the start on can consume input before the final state. -/
def onlyMatchesEmptySuffix (automaton : Automaton) (start : StateId) : Except Fault Bool :=
  automaton.walkEmptySuffix [] [start]

end PatternGraph.Automaton
