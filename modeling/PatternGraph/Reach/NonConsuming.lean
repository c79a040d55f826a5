/-
This file answers whether one state can be reached from another without consuming input. The walk
crosses the edges that consume nothing, empty steps and the entries into negative lookarounds, and
besides them those into a line break that an end boundary met before leaves unconsumed. In the
stricter form of the question the walk does not go on from a boundary either, although the goal may
be one.

A goal that is the end of a lookaround counts as reached as soon as the walk stands before it. That
needs no case of its own: such an end is entered by an empty step, so the walk crosses the edge and
is at the goal (`walkWithoutConsuming_endOfLookaround`).
-/

import PatternGraph.Reach.Visit

namespace PatternGraph.Automaton

/-- Whether a visit can be made without consuming input. -/
def canCross (automaton : Automaton) (visited : List StateId) : Visit → Except Fault Bool
  | .reached _ => .ok true
  | .across id =>
    (automaton.transition id).map fun transition =>
      transition == .epsilon || transition == .negation || automaton.isFinalLineBreak visited id

/-- Whether the walk goes no further at a state: it has been there, or the state is a boundary that
the walk does not cross. -/
def stopsAt (automaton : Automaton) (stopAtBoundaries : Bool) (visited : List StateId)
    (id : StateId) : Except Fault Bool :=
  if visited.contains id then .ok true
  else if stopAtBoundaries then automaton.isOfKind .boundary id
  else .ok false

theorem unseen_of_stopsAt {automaton : Automaton} {stopAtBoundaries : Bool}
    {visited : List StateId} {id : StateId}
    (goesOn : automaton.stopsAt stopAtBoundaries visited id = .ok false) :
    visited.contains id = false := by
  unfold stopsAt at goesOn
  split at goesOn
  · cases goesOn
  · rename_i unseen
    simpa using unseen

/-- Makes the given visits in order, those that one brings about directly after it, until the goal
is reached. -/
def walkWithoutConsuming (automaton : Automaton) (goal : StateId) (stopAtBoundaries : Bool)
    (visited : List StateId) (visits : List Visit) : Except Fault Bool :=
  match visits with
  | [] => .ok false
  | visit :: pending =>
    match automaton.canCross visited visit with
    | .error fault => .error fault
    | .ok false => walkWithoutConsuming automaton goal stopAtBoundaries visited pending
    | .ok true =>
      if visit.state = goal then .ok true
      else
        match _goesOn : automaton.stopsAt stopAtBoundaries visited visit.state with
        | .error fault => .error fault
        | .ok true => walkWithoutConsuming automaton goal stopAtBoundaries visited pending
        | .ok false =>
          match _found : automaton.successors visit.state with
          | .error fault => .error fault
          | .ok next =>
            walkWithoutConsuming automaton goal stopAtBoundaries (visit.state :: visited)
              (next.map .across ++ pending)
termination_by automaton.unexplored automaton.fanOut visited.contains + visits.length
decreasing_by
  · simp
  · simp
  · have shrinks := unexplored_cons_le automaton.fanOut
      (unseen_of_stopsAt _goesOn) (mem_ids_of_successors _found)
    rw [fanOut_of_successors _found] at shrinks
    simp only [List.length_append, List.length_map, List.length_cons]
    omega

/-- A walk that stands before the goal has reached it if the goal is the end of a lookaround. -/
theorem walkWithoutConsuming_endOfLookaround {automaton : Automaton} {goal owner : StateId}
    (isEnd : automaton.state? goal = some (.endOfLookaround owner)) (stopAtBoundaries : Bool)
    (visited : List StateId) (pending : List Visit) :
    automaton.walkWithoutConsuming goal stopAtBoundaries visited (.across goal :: pending) =
      .ok true := by
  have crossed : automaton.canCross visited (.across goal) = .ok true := by
    rw [canCross, transition, state, isEnd]
    rfl
  rw [walkWithoutConsuming]
  simp only [crossed, Visit.state, if_true]

/-- Whether the goal can be reached from the start without consuming input. -/
def canReachWithoutConsuming (automaton : Automaton) (start goal : StateId) : Except Fault Bool :=
  automaton.walkWithoutConsuming goal false [] [.reached start]

/-- Whether the goal can be reached from the start without consuming input and without crossing a
boundary. -/
def canReachWithoutConsumingNorCrossingBoundaries (automaton : Automaton) (start goal : StateId) :
    Except Fault Bool :=
  automaton.walkWithoutConsuming goal true [] [.reached start]

end PatternGraph.Automaton
