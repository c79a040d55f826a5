/-
This file holds what the walks over an automaton share. A walk keeps the states it has visited and a
list of visits still to be made. Most visits cross an edge and ask first whether the edge may be
crossed; the start of a walk, and what follows a lookaround that is passed over, is visited without
asking.

Two things depend on more than one state. The boundaries before a final line break do not consume
it, so a line break written as an escape, or a dot that matches line breaks, may still follow such a
boundary; the walks ask whether any state they have visited is one. And walks that care about what
the pattern itself consumes pass over a lookaround: only its continuation counts.
-/

import PatternGraph.Reach.Frontier

namespace PatternGraph

/-- A visit that a walk has to make. -/
inductive Visit
  /-- The walk is at the state. -/
  | reached (id : StateId)
  /-- The walk may move to the state if the edge to it can be crossed. -/
  | across (id : StateId)
  deriving DecidableEq

@[simp]
def Visit.state : Visit → StateId
  | .reached id | .across id => id

namespace Automaton

/-- Whether a state is a character that may be a line break: an escaped character, or a dot where
dots match line breaks. -/
def mayBreakLine (automaton : Automaton) (id : StateId) : Bool :=
  match automaton.tree? id with
  | some treeNode =>
    match treeNode.node with
    | .leaf (.character character) => character.isEscape
    | .leaf .dot => treeNode.flags.contains Flag.dotAll.mask
    | _ => false
  | none => false

/-- Whether a state is a boundary that lets a line break follow it. -/
def allowsLineBreak (automaton : Automaton) (id : StateId) : Bool :=
  match automaton.boundary? id with
  | some boundary => boundary.allowsLineBreak
  | none => false

/-- Whether a state may be the line break after one of the visited boundaries. -/
def isFinalLineBreak (automaton : Automaton) (visited : List StateId) (id : StateId) : Bool :=
  automaton.mayBreakLine id && visited.any automaton.allowsLineBreak

/-- Whether a state is a boundary at the end of a line or of the input. -/
def isEndBoundary (automaton : Automaton) (id : StateId) : Except Fault Bool :=
  (automaton.state id).map fun _ =>
    match automaton.boundary? id with
    | some boundary => boundary.isEnd
    | none => false

/-- Whether a state is a lookaround. -/
def isLookAround (automaton : Automaton) (id : StateId) : Bool :=
  match automaton.tree? id with
  | some treeNode => treeNode.node.kind == .lookAround
  | none => false

/-- The visits that follow a state when lookarounds are passed over. -/
def visitsPast (automaton : Automaton) (id : StateId) : Except Fault (List Visit) :=
  (automaton.state id).bind fun _ =>
    if automaton.isLookAround id then
      (automaton.continuation id).map fun next => next.toList.map .reached
    else (automaton.successors id).map fun next => next.map .across

/-- The number of those visits, zero when the question has no answer. -/
def visitsPastCount (automaton : Automaton) (id : StateId) : Nat :=
  match automaton.visitsPast id with
  | .ok visits => visits.length
  | .error _ => 0

theorem mem_ids_of_visitsPast {automaton : Automaton} {id : StateId} {visits : List Visit}
    (found : automaton.visitsPast id = .ok visits) : id ∈ automaton.ids := by
  obtain ⟨state, held, -⟩ := exists_of_bind_eq_ok found
  exact mem_ids_of_state held

theorem visitsPastCount_of_visitsPast {automaton : Automaton} {id : StateId} {visits : List Visit}
    (found : automaton.visitsPast id = .ok visits) :
    automaton.visitsPastCount id = visits.length := by
  simp [visitsPastCount, found]

end Automaton

end PatternGraph
