/-
This file lists the ways in which an automaton can be misused. The first four name the state at
fault: a continuation is written once and read only after that, and an operation on a tree node or a
back-reference needs one. Two come from following the links of a state that does not exist or
of a node whose continuation is still open, and the last one from handles that form a loop.
-/

import PatternGraph.StateId

namespace PatternGraph

/-- Why a question about an automaton, or a step of its construction, has no answer. -/
inductive Fault
  /-- A node receives a continuation for the second time. -/
  | alreadyLinked (id : StateId)
  /-- The continuation of a node is asked for before it was set. -/
  | notLinked (id : StateId)
  /-- A tree node is needed where a glue state or no state at all was named. -/
  | notTree (id : StateId)
  /-- A back-reference is needed where another node was named. -/
  | notBackReference (id : StateId)
  /-- A state is needed that does not exist. -/
  | noState
  /-- A node has to be left whose continuation was not set. -/
  | openEnd
  /-- The way leads back to where it was: a node is its own descendant where a tree is needed, or a
  question is passed on in a circle of owners. -/
  | cyclic (id : StateId)
  deriving DecidableEq

namespace Fault

/-- The name of the kind of fault, without its particulars. -/
def name : Fault → String
  | alreadyLinked _ => "ContinuationAlreadySet"
  | notLinked _ => "ContinuationNotSet"
  | notTree _ => "NotATree"
  | notBackReference _ => "NotABackReference"
  | noState => "NoState"
  | openEnd => "OpenEnd"
  | cyclic _ => "Cyclic"

/-- The diagnostic shown to the caller. -/
def message : Fault → String
  | alreadyLinked id => "Continuation of " ++ id.render ++ " set more than once"
  | notLinked id => "Continuation of " ++ id.render ++ " read before it was set"
  | notTree id => "State " ++ id.render ++ " is not a syntax tree"
  | notBackReference id => "State " ++ id.render ++ " is not a back-reference"
  | noState => "index out of bounds"
  | openEnd => "RegexTree continuation read before it was set"
  | cyclic id => "State " ++ id.render ++ " leads back to itself"

end Fault

end PatternGraph
