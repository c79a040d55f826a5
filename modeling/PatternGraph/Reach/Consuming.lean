/-
This file answers whether one state can be reached from another after consuming a character. The
walk passes over lookarounds and looks for an edge that consumes: from its far side on, the question
is only whether the goal can be reached at all, and that is a query to the checker. An edge into the
line break that an end boundary leaves unconsumed does not count, and nothing is looked for behind
it. The walk itself never goes on from the goal.
-/

import PatternGraph.Reach.Checker
import PatternGraph.Reach.Visit

namespace PatternGraph

/-- What a visit comes to. -/
inductive Crossing
  /-- Nothing is looked for behind the edge. -/
  | blocked
  /-- The edge consumes a character. -/
  | consuming
  /-- The walk is at the state without having consumed anything. -/
  | free
  deriving DecidableEq

/-- What a visit comes to, given the visited states. -/
def Automaton.crossing (automaton : Automaton) (visited : List StateId) :
    Visit → Except Fault Crossing
  | .reached _ => .ok .free
  | .across id =>
    (automaton.transition id).map fun transition =>
      if transition == .character then
        if automaton.isFinalLineBreak visited id then .blocked else .consuming
      else .free

namespace Checker

/-- Makes the given visits in order, those that one brings about directly after it, until a
consuming edge leads to the goal. -/
def walkConsuming (automaton : Automaton) (goal : StateId) (checker : Checker)
    (visited : List StateId) (visits : List Visit) : Search :=
  match visits with
  | [] => ⟨.ok false, checker, []⟩
  | visit :: pending =>
    match automaton.crossing visited visit with
    | .error fault => ⟨.error fault, checker, []⟩
    | .ok .blocked => walkConsuming automaton goal checker visited pending
    | .ok .consuming =>
      let reached := checker.canReach automaton visit.state goal
      match reached.answer with
      | .ok false =>
        (walkConsuming automaton goal reached.checker visited pending).after reached.records
      | _ => reached
    | .ok .free =>
      if _stops : visit.state = goal ∨ visited.contains visit.state = true then
        walkConsuming automaton goal checker visited pending
      else
        match _found : automaton.visitsPast visit.state with
        | .error fault => ⟨.error fault, checker, []⟩
        | .ok next =>
          walkConsuming automaton goal checker (visit.state :: visited) (next ++ pending)
termination_by automaton.unexplored automaton.visitsPastCount visited.contains + visits.length
decreasing_by
  · simp
  · simp
  · simp
  · have shrinks := Automaton.unexplored_cons_le automaton.visitsPastCount
      (Bool.eq_false_iff.mpr fun seen => _stops (Or.inr seen))
      (Automaton.mem_ids_of_visitsPast _found)
    rw [Automaton.visitsPastCount_of_visitsPast _found] at shrinks
    simp only [List.length_append, List.length_cons]
    omega

/-- Whether the goal can be reached from the start after consuming at least one character. -/
def canReachConsuming (checker : Checker) (automaton : Automaton) (start goal : StateId) : Search :=
  walkConsuming automaton goal checker [] [.reached start]

end Checker

end PatternGraph
