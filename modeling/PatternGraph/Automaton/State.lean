/-
This file defines the states of an automaton. A state is a node of the syntax tree or one of the
glue states that stand where no node marks a joint of the control flow. Every glue state except the
start and the final one belongs to a tree node, its owner, from which it borrows its flags.
-/

import PatternGraph.Syntax.Node

namespace PatternGraph

/-- A node of the syntax tree as a state: where it was written, the flags active there, and the
state that follows it, once linking has settled that. -/
structure TreeNode where
  range : TextRange
  flags : FlagSet
  node : Node
  continuation : Option StateId := none

def TreeNode.isLinked (tree : TreeNode) : Bool := tree.continuation.isSome

/-- A state of an automaton. -/
inductive State
  | tree (treeNode : TreeNode)
  /-- A choice between successors in a fixed order. -/
  | branch (owner : StateId) (successors : List StateId)
  | endOfRepetition (owner continuation : StateId)
  | endOfCapturingGroup (owner : StateId)
  | endOfLookaround (owner : StateId)
  /-- The way into the element of a negative lookaround. -/
  | negation (owner content : StateId)
  /-- The way into a lookbehind, from which the input is scanned backwards. -/
  | startOfLookBehind (owner content : StateId)
  | endOfConditional (owner : StateId)
  | start (root : StateId) (flags : FlagSet)
  | final (flags : FlagSet)

namespace State

def tree? : State → Option TreeNode
  | .tree treeNode => some treeNode
  | _ => none

def isTree : State → Bool
  | .tree _ => true
  | _ => false

/-- The name of a state: that of the node for a tree, that of the joint for glue. -/
def name : State → String
  | .tree treeNode => treeNode.node.typeName
  | .branch .. => "Branch"
  | .endOfRepetition .. => "EndOfRepetition"
  | .endOfCapturingGroup _ => "EndOfCapturingGroup"
  | .endOfLookaround _ => "EndOfLookaround"
  | .negation .. => "Negation"
  | .startOfLookBehind .. => "StartOfLookBehind"
  | .endOfConditional _ => "EndOfConditionalSubpatterns"
  | .start .. => "Start"
  | .final _ => "Final"

/-- The tree node that a glue state belongs to. -/
def owner? : State → Option StateId
  | .branch owner _ | .endOfRepetition owner _ | .endOfCapturingGroup owner |
    .endOfLookaround owner | .negation owner _ | .startOfLookBehind owner _ |
    .endOfConditional owner => some owner
  | .tree _ | .start .. | .final _ => none

/-- How the automaton moves into the state. -/
def transition : State → Transition
  | .tree treeNode => treeNode.node.transition
  | .negation .. => .negation
  | .startOfLookBehind .. => .lookaroundBacktracking
  | _ => .epsilon

end State

end PatternGraph
