/-
This file makes outlines from the syntax tree of a pattern. Every tree node becomes a node of the
outline, labelled with its text; the elements of a character class, which are no states, become the
nodes below the class.
-/

import PatternGraph.Outline.Basic
import PatternGraph.Pattern
import PatternGraph.SyntaxTree

namespace PatternGraph

/-- The name of a class element in outlines. -/
def ClassElement.outlineName : ClassElement → String
  | .union .. => "ClassUnion"
  | .intersection .. => "ClassIntersection"
  | .nested .. => "ClassNested"
  | .item _ (.span _) => "ClassRange"
  | .item _ (.escaped _) => "ClassEscaped"
  | .item _ (.character _) => "ClassCharacter"
  | .item _ .miscEscape => "ClassMiscEscape"
  | .item _ (.posix ..) => "ClassPosix"

/-- The attribute that marks what is negated. -/
def negatedAttribute (negated : Bool) : List (String × String) :=
  if negated then [("negated", "true")] else []

def ClassElement.outlineAttributes : ClassElement → List (String × String)
  | .nested _ opening _ => negatedAttribute opening.negated
  | .item _ (.escaped escaped) => [("class", escaped.render)]
  | .item _ (.posix negated property) => ("property", property) :: negatedAttribute negated
  | _ => []

mutual

/-- The outline of a class element. -/
def ClassElement.outline (source : Source) : ClassElement → Outline
  | .item site item =>
    ⟨(ClassElement.item site item).outlineName, source.textAt site.range,
      attributesOf (ClassElement.item site item).outlineAttributes, []⟩
  | .union site elements =>
    ⟨"ClassUnion", source.textAt site.range, [], outlineElements source elements⟩
  | .intersection site elements _ =>
    ⟨"ClassIntersection", source.textAt site.range, [], outlineElements source elements⟩
  | .nested site opening contents =>
    ⟨"ClassNested", source.textAt site.range, negatedAttribute opening.negated,
      [ClassElement.outline source contents]⟩

/-- The outlines of a row of class elements. -/
def outlineElements (source : Source) : List ClassElement → List Outline
  | [] => []
  | element :: rest => ClassElement.outline source element :: outlineElements source rest

end

/-- The attribute for a row of flag letters, nothing for the empty set. -/
def flagsAttribute (key : String) (flags : FlagSet) : List (String × String) :=
  if flags.isEmpty then [] else [(key, flags.letters)]

/-- What an outline tells of a node besides its type and its text. -/
def Node.outlineAttributes : Node → List (String × String)
  | .leaf (.character character) => if character.isEscape then [("escape", "true")] else []
  | .leaf (.boundary boundary) => [("type", boundary.name)]
  | .leaf (.escapedClass escaped) => [("class", escaped.render)]
  | .leaf (.characterClass bracketed) => negatedAttribute bracketed.opening.negated
  | .leaf (.backReference reference) => [("group", reference.groupName)]
  | .leaf (.referenceCondition reference) => [("reference", reference)]
  | .capturingGroup _ name number =>
    ("number", toString number) :: (name.map fun given => ("name", given)).toList
  | .nonCapturingGroup _ enabled disabled =>
    flagsAttribute "enabled" enabled ++ flagsAttribute "disabled" disabled
  | .lookAround _ polarity direction _ =>
    [("direction", direction.name), ("polarity", polarity.name)]
  | .repetition _ quantifier =>
    [("min", toString quantifier.minimum),
      ("max", (quantifier.maximum.map toString).getD "inf"),
      ("modifier", quantifier.modifier.name)]
  | .leaf .dot | .leaf .miscEscape | .sequence _ | .disjunction .. | .atomicGroup _ |
    .conditional .. => []

/-- The outlines below a node that are not those of its children. -/
def Node.innerOutlines (source : Source) : Node → List Outline
  | .leaf (.characterClass bracketed) => [bracketed.contents.outline source]
  | _ => []

mutual

/-- The outline of a syntax tree. -/
def SyntaxTree.outline (source : Source) : SyntaxTree → Outline
  | .node _ content children =>
    ⟨content.node.typeName, source.textAt content.range,
      attributesOf content.node.outlineAttributes,
      content.node.innerOutlines source ++ outlineTrees source children⟩

/-- The outlines of a row of syntax trees. -/
def outlineTrees (source : Source) : List SyntaxTree → List Outline
  | [] => []
  | tree :: rest => SyntaxTree.outline source tree :: outlineTrees source rest

end

/-- The nodes that have their outlines below that of a node, in order. -/
def Node.outlinedChildren : Node → List StateId
  | .leaf _ => []
  | .sequence items => items
  | .disjunction alternatives _ => alternatives
  | .capturingGroup body .. => [body.element]
  | .nonCapturingGroup (some body) .. => [body.element]
  | .nonCapturingGroup none .. => []
  | .atomicGroup body => [body.element]
  | .lookAround body .. => [body.element]
  | .repetition element _ => [element]
  | .conditional condition yes _ none => [condition, yes]
  | .conditional condition yes _ (some no) => [condition, yes, no]

namespace Automaton

/-- The tree below a node as its outline shows it. -/
def outlinedTree (automaton : Automaton) (id : StateId) : Except Fault SyntaxTree :=
  automaton.subtree (fun content => .ok content.node.outlinedChildren) [] id

/-- The outline of a tree node and everything below it. -/
def outline (automaton : Automaton) (id : StateId) : Except Fault Outline :=
  (automaton.outlinedTree id).map (SyntaxTree.outline automaton.source)

end Automaton

/-- The outline of a finished pattern. -/
def Pattern.outline (pattern : Pattern) : Except Fault Outline :=
  pattern.automaton.outline pattern.root

end PatternGraph
