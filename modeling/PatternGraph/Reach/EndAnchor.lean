/-
This file answers whether a pattern is anchored at its end: whether every path from a state meets a
boundary at the end of a line or of the input before it comes to the final state. The walk stops at
such boundaries, so it comes to the final state exactly if some path avoids them; a loop that never
comes to the final state gives no verdict of its own.
-/

import PatternGraph.Reach.Visit

namespace PatternGraph.Automaton

/-- Whether a state is the final one. -/
def isFinal (automaton : Automaton) (id : StateId) : Bool :=
  match automaton.state? id with
  | some (.final _) => true
  | _ => false

/-- Visits the given states in order, the successors of one directly after it, until one of them is
the final state. -/
def walkToEnd (automaton : Automaton) (visited pending : List StateId) : Except Fault Bool :=
  match pending with
  | [] => .ok true
  | id :: rest =>
    if _seen : visited.contains id then walkToEnd automaton visited rest
    else
      match automaton.isEndBoundary id with
      | .error fault => .error fault
      | .ok true => walkToEnd automaton visited rest
      | .ok false =>
        if automaton.isFinal id then .ok false
        else
          match _found : automaton.successors id with
          | .error fault => .error fault
          | .ok next => walkToEnd automaton (id :: visited) (next ++ rest)
termination_by automaton.unexplored automaton.fanOut visited.contains + pending.length
decreasing_by
  · simp
  · simp
  · have shrinks := unexplored_cons_le automaton.fanOut (Bool.eq_false_iff.mpr _seen)
      (mem_ids_of_successors _found)
    rw [fanOut_of_successors _found] at shrinks
    simp only [List.length_append, List.length_cons]
    omega

/-- Whether every path from the start meets an end boundary before the final state. -/
def isAnchoredAtEnd (automaton : Automaton) (start : StateId) : Except Fault Bool :=
  automaton.walkToEnd [] [start]

end PatternGraph.Automaton
