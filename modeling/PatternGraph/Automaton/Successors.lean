/-
This file gives the edges of the automaton: the states that it may move to from a state, in order of
preference. A node with something inside is left through what is inside; its continuation follows
once that has been passed, which linking arranges. A lookaround offers its element and then its
continuation. A repetition that may be skipped offers both ways, in the order that its modifier
prefers. Everything else moves to its continuation.
-/

import PatternGraph.Automaton.Basic

namespace PatternGraph

/-- The continuation of a tree node that has to be left. -/
def TreeNode.exit (tree : TreeNode) : Except Fault StateId :=
  match tree.continuation with
  | some next => .ok next
  | none => .error .openEnd

/-- The states that follow a tree node, in order of preference. -/
def TreeNode.successors (tree : TreeNode) : Except Fault (List StateId) :=
  match tree.node with
  | .sequence (first :: _) => .ok [first]
  | .disjunction alternatives _ => .ok alternatives
  | .capturingGroup body .. | .nonCapturingGroup (some body) .. | .atomicGroup body =>
    .ok [body.element]
  | .lookAround _ _ _ entry => tree.exit.map fun next => [entry, next]
  | .repetition element quantifier =>
    if 0 < quantifier.minimum then .ok [element]
    else tree.exit.map fun next =>
      if quantifier.maximum = some 0 then [next]
      else if quantifier.isReluctant then [next, element]
      else [element, next]
  | .leaf _ | .sequence [] | .nonCapturingGroup none .. | .conditional .. =>
    tree.exit.map fun next => [next]

/-- The states that the automaton may move to, in order of preference. -/
def Automaton.successors (automaton : Automaton) (id : StateId) : Except Fault (List StateId) :=
  (automaton.state id).bind fun
    | .tree tree => tree.successors
    | .branch _ successors => .ok successors
    | _ => (automaton.continuation id).map Option.toList

end PatternGraph
