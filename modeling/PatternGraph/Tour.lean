/-
This file tells the tour that a visitor of a pattern takes: what it meets, in the order in which the
pattern is read. The tour enters and leaves every node, notes leaves by their kind and groups before
their element, and goes through the elements of character classes as well. It never follows a
continuation, so it ends also where the automaton has loops.

Of a conditional it visits the condition only if that is a lookaround; a reference condition, met
anywhere, is entered and left and otherwise passed in silence.
-/

import PatternGraph.Pattern
import PatternGraph.SyntaxTree

namespace PatternGraph

/-- Something met on a tour. -/
inductive TourEvent
  | enter (id : StateId)
  | leave (id : StateId)
  | character (id : StateId) (codePoint : Nat)
  | dot (id : StateId)
  | boundary (id : StateId) (boundary : Boundary)
  | group (id : StateId) (element : Option StateId)
  | backReference (id : StateId) (groupName : String)
  | escapedClass (id : StateId) (escaped : EscapedClass)
  | miscEscape (id : StateId)
  | inClass (kind : ClassElementKind) (text : String)
  | classSpan (lower upper : Nat)
  | classCharacter (codePoint : Nat)
  | classEscaped (escaped : EscapedClass)
  | classMiscEscape
  | classPosix (property : String) (negated : Bool)

/-- The code point of a character met outside or inside of a class. -/
def TourEvent.codePoint? : TourEvent → Option Nat
  | .character _ codePoint | .classCharacter codePoint => some codePoint
  | _ => none

/-- What is met at a class element without elements below it. -/
def ClassItem.events : ClassItem → List TourEvent
  | .span bounds =>
    [.classSpan bounds.lower.character.codePoint bounds.upper.character.codePoint]
  | .escaped shorthand => [.classEscaped shorthand]
  | .character literal => [.classCharacter literal.codePoint]
  | .miscEscape => [.classMiscEscape]
  | .posix negated property => [.classPosix property negated]

mutual

/-- What is met in a class element. -/
def ClassElement.events (source : Source) : ClassElement → List TourEvent
  | .item site item =>
    .inClass item.kind (source.textAt site.range) :: item.events
  | .union site elements =>
    .inClass .union (source.textAt site.range) :: elementEvents source elements
  | .intersection site elements _ =>
    .inClass .intersection (source.textAt site.range) :: elementEvents source elements
  | .nested site _ contents =>
    .inClass .nestedCharacterClass (source.textAt site.range) ::
      ClassElement.events source contents

/-- What is met in a row of class elements. -/
def elementEvents (source : Source) : List ClassElement → List TourEvent
  | [] => []
  | element :: rest => ClassElement.events source element ++ elementEvents source rest

end

/-- What is met at a node before its children. -/
def Node.events (source : Source) (id : StateId) : Node → List TourEvent
  | .leaf (.character character) => [.character id character.codePoint]
  | .leaf .dot => [.dot id]
  | .leaf (.boundary boundary) => [.boundary id boundary]
  | .leaf (.escapedClass escaped) => [.escapedClass id escaped]
  | .leaf (.characterClass bracketed) => bracketed.contents.events source
  | .leaf .miscEscape => [.miscEscape id]
  | .leaf (.backReference reference) => [.backReference id reference.groupName]
  | .capturingGroup body .. | .atomicGroup body | .lookAround body .. =>
    [.group id (some body.element)]
  | .nonCapturingGroup body .. => [.group id (body.map GroupBody.element)]
  | .leaf (.referenceCondition _) | .sequence _ | .disjunction .. | .repetition .. |
    .conditional .. => []

mutual

/-- What is met in a syntax tree. -/
def SyntaxTree.events (source : Source) : SyntaxTree → List TourEvent
  | .node id content children =>
    .enter id :: (content.node.events source id ++ treeEvents source children ++ [.leave id])

/-- What is met in a row of syntax trees. -/
def treeEvents (source : Source) : List SyntaxTree → List TourEvent
  | [] => []
  | tree :: rest => SyntaxTree.events source tree ++ treeEvents source rest

end

namespace Automaton

/-- The nodes that a visitor goes to from a node, in order. It goes through everything that stands
for a part of the input, so of a conditional it leaves out a condition that is no lookaround. -/
def visitedChildren (automaton : Automaton) (content : TreeNode) :
    Except Fault (List StateId) :=
  match content.node with
  | .leaf _ => .ok []
  | .sequence items => .ok items
  | .disjunction alternatives _ => .ok alternatives
  | .capturingGroup body .. => .ok [body.element]
  | .nonCapturingGroup (some body) .. => .ok [body.element]
  | .nonCapturingGroup none .. => .ok []
  | .atomicGroup body => .ok [body.element]
  | .lookAround body .. => .ok [body.element]
  | .repetition element _ => .ok [element]
  | .conditional condition yes _ no =>
    (automaton.tree condition).map fun asked =>
      if asked.node.kind == .lookAround then condition :: yes :: no.toList
      else yes :: no.toList

/-- The tree below a node as a visitor walks it. -/
def visitedTree (automaton : Automaton) (id : StateId) : Except Fault SyntaxTree :=
  automaton.subtree automaton.visitedChildren [] id

/-- The tour of a tree node and everything below it. -/
def tour (automaton : Automaton) (id : StateId) : Except Fault (List TourEvent) :=
  (automaton.visitedTree id).map (SyntaxTree.events automaton.source)

end Automaton

/-- The tour of a finished pattern. -/
def Pattern.tour (pattern : Pattern) : Except Fault (List TourEvent) :=
  pattern.automaton.tour pattern.root

end PatternGraph
