/-
This file gives a pattern two meanings as a set of words, where a word lists the leaves that are
passed, and a leaf counts as a letter of its own. The words of the graph are read along paths of
successors from the start to the final state. The language of the syntax tree is defined by
recursion, without any reference to the graph: sequences concatenate, disjunctions choose, and
repetitions repeat. Lookarounds may be passed over, and nothing is read in a conditional, into
which no state of the graph moves.
-/

import Mathlib.Computability.Language
import PatternGraph.Pattern
import PatternGraph.Proofs.Moves
import PatternGraph.SyntaxTree

namespace PatternGraph

open scoped Computability

/-! ### Words of the graph -/

/-- Whether a leaf is a letter. The condition of a conditional is none. -/
def Leaf.isLetter : Leaf → Bool
  | .referenceCondition _ => false
  | _ => true

namespace Automaton

def isLetter (automaton : Automaton) (id : StateId) : Bool :=
  match (automaton.tree? id).map TreeNode.node with
  | some (.leaf leaf) => leaf.isLetter
  | _ => false

/-- The word of the visited states. -/
def word (automaton : Automaton) (visited : List StateId) : List StateId :=
  visited.filter automaton.isLetter

/-- A path of successors, with the states it visits from its first to its last. -/
inductive Walk (automaton : Automaton) : StateId → List StateId → StateId → Prop
  | stop (id : StateId) : Walk automaton id [id] id
  | step {id next goal : StateId} {visited : List StateId} (moves : automaton.Moves id next)
    (rest : Walk automaton next visited goal) : Walk automaton id (id :: visited) goal

end Automaton

/-- The words along the paths from the start to the final state. -/
def Pattern.words (pattern : Pattern) : Language StateId :=
  {word | ∃ visited, pattern.automaton.Walk pattern.start visited pattern.final ∧
    pattern.automaton.word visited = word}

/-! ### The language of a syntax tree -/

/-- The language of a repetition, given that of its element. The modifier does not matter. -/
def Quantifier.language (quantifier : Quantifier) (element : Language StateId) :
    Language StateId :=
  if quantifier.minimum = 0 then
    if quantifier.maximum = some 0 then 1
    else if quantifier.maximum = some 1 then 1 + element
    else element∗
  else if quantifier.maximum = some 1 then element
  else element * element∗

/-- The language of a node, given those of its children in order. A group has at most one child, so
the product of the languages is that of its element, or the empty word without one. -/
def Node.language (id : StateId) (children : List (Language StateId)) : Node → Language StateId
  | .leaf content => if content.isLetter then {[id]} else 1
  | .sequence _ => children.prod
  | .disjunction .. => children.sum
  | .capturingGroup .. | .nonCapturingGroup .. | .atomicGroup _ => children.prod
  | .lookAround .. => 1 + children.prod
  | .repetition _ quantifier => quantifier.language children.prod
  | .conditional .. => 1

namespace SyntaxTree

mutual

def language : SyntaxTree → Language StateId
  | .node id content children => content.node.language id (languages children)

/-- The languages of a row of trees. -/
def languages : List SyntaxTree → List (Language StateId)
  | [] => []
  | tree :: rest => language tree :: languages rest

end

theorem languages_eq_map (trees : List SyntaxTree) : languages trees = trees.map language := by
  induction trees with
  | nil => rfl
  | cons tree rest inductionHypothesis => rw [languages, inductionHypothesis, List.map_cons]

end SyntaxTree

end PatternGraph
