/-
This file defines the nodes of the syntax tree of a pattern. A node names its children by handle, so
the tree lives inside the automaton that will be linked from it. Leaves match or assert something at
a single place; the other nodes say how their children follow each other.

A group keeps its header, the text from its beginning up to its element, and a lookaround keeps the
state through which its element is entered. Both are settled when the node is built.
-/

import PatternGraph.Syntax.BackReference
import PatternGraph.Syntax.Boundary
import PatternGraph.Syntax.CharacterClass
import PatternGraph.Syntax.Quantifier

namespace PatternGraph

/-- Whether a lookaround requires or forbids its element. -/
inductive Polarity
  | positive
  | negative
  deriving DecidableEq

namespace Polarity

def all : List Polarity := [positive, negative]

def name : Polarity → String
  | positive => "Positive"
  | negative => "Negative"

def ofName? (name : String) : Option Polarity := all.find? fun polarity => polarity.name == name

end Polarity

/-- The side on which a lookaround looks for its element. -/
inductive Direction
  | ahead
  | behind
  deriving DecidableEq

namespace Direction

def all : List Direction := [ahead, behind]

def name : Direction → String
  | ahead => "Ahead"
  | behind => "Behind"

def ofName? (name : String) : Option Direction := all.find? fun direction => direction.name == name

end Direction

/-- How the automaton moves into a state. -/
inductive Transition
  | epsilon
  | character
  | backReference
  | lookaroundBacktracking
  | negation
  deriving DecidableEq

namespace Transition

def all : List Transition := [epsilon, character, backReference, lookaroundBacktracking, negation]

def name : Transition → String
  | epsilon => "Epsilon"
  | character => "Character"
  | backReference => "BackReference"
  | lookaroundBacktracking => "LookaroundBacktracking"
  | negation => "Negation"

def ofName? (name : String) : Option Transition :=
  all.find? fun transition => transition.name == name

end Transition

/-- The kind of a node as analyses see it. -/
inductive Kind
  | backReference
  | boundary
  | characterClass
  | disjunction
  | dot
  | escapedCharacterClass
  | capturingGroup
  | nonCapturingGroup
  | atomicGroup
  | lookAround
  | character
  | repetition
  | sequence
  | miscEscapeSequence
  | conditionalSubpatterns
  deriving DecidableEq

namespace Kind

def all : List Kind :=
  [backReference, boundary, characterClass, disjunction, dot, escapedCharacterClass,
    capturingGroup, nonCapturingGroup, atomicGroup, lookAround, character, repetition, sequence,
    miscEscapeSequence, conditionalSubpatterns]

def name : Kind → String
  | backReference => "BackReference"
  | boundary => "Boundary"
  | characterClass => "CharacterClass"
  | disjunction => "Disjunction"
  | dot => "Dot"
  | escapedCharacterClass => "EscapedCharacterClass"
  | capturingGroup => "CapturingGroup"
  | nonCapturingGroup => "NonCapturingGroup"
  | atomicGroup => "AtomicGroup"
  | lookAround => "LookAround"
  | character => "Character"
  | repetition => "Repetition"
  | sequence => "Sequence"
  | miscEscapeSequence => "MiscEscapeSequence"
  | conditionalSubpatterns => "ConditionalSubpatterns"

def ofName? (name : String) : Option Kind := all.find? fun kind => kind.name == name

end Kind

/-- A node without children. -/
inductive Leaf
  | character (character : Character)
  | dot
  | boundary (boundary : Boundary)
  | escapedClass (escaped : EscapedClass)
  | characterClass (bracketed : CharacterClass)
  /-- An escape sequence whose meaning does not matter to any analysis. -/
  | miscEscape
  | backReference (reference : BackReference)
  /-- The number or name that a conditional subpattern asks about. -/
  | referenceCondition (reference : String)

/-- The element of a group and the text before it. -/
structure GroupBody where
  element : StateId
  header : Token
  deriving DecidableEq

/-- A node of the syntax tree. -/
inductive Node
  | leaf (leaf : Leaf)
  | sequence (items : List StateId)
  /-- The alternatives as written, with the bars between them. -/
  | disjunction (alternatives : List StateId) (bars : List SourceCharacter)
  | capturingGroup (body : GroupBody) (name : Option String) (number : Nat)
  /-- A group that sets flags; without body it only switches flags for what follows. -/
  | nonCapturingGroup (body : Option GroupBody) (enabled disabled : FlagSet)
  | atomicGroup (body : GroupBody)
  /-- The entry is the element itself or the first of the glue states before it. -/
  | lookAround (body : GroupBody) (polarity : Polarity) (direction : Direction) (entry : StateId)
  | repetition (element : StateId) (quantifier : Quantifier)
  | conditional (condition yes : StateId) (bar : Option SourceCharacter) (no : Option StateId)

/-- A reference condition checks a group in the way a back-reference does, hence their one kind. -/
def Leaf.kind : Leaf → Kind
  | .character _ => .character
  | .dot => .dot
  | .boundary _ => .boundary
  | .escapedClass _ => .escapedCharacterClass
  | .characterClass _ => .characterClass
  | .miscEscape => .miscEscapeSequence
  | .backReference _ | .referenceCondition _ => .backReference

/-- The name of a leaf in diagnostics and outlines. -/
def Leaf.typeName : Leaf → String
  | .character _ => "Character"
  | .dot => "Dot"
  | .boundary _ => "Boundary"
  | .escapedClass _ => "EscapedCharacterClass"
  | .characterClass _ => "CharacterClass"
  | .miscEscape => "MiscEscapeSequence"
  | .backReference _ => "BackReference"
  | .referenceCondition _ => "ReferenceCondition"

/-- Moving into a leaf that stands for a character consumes one. -/
def Leaf.transition : Leaf → Transition
  | .character _ | .dot | .escapedClass _ | .characterClass _ | .miscEscape => .character
  | .backReference _ => .backReference
  | .boundary _ | .referenceCondition _ => .epsilon

namespace Node

def kind : Node → Kind
  | .leaf content => content.kind
  | .sequence _ => .sequence
  | .disjunction .. => .disjunction
  | .capturingGroup .. => .capturingGroup
  | .nonCapturingGroup .. => .nonCapturingGroup
  | .atomicGroup _ => .atomicGroup
  | .lookAround .. => .lookAround
  | .repetition .. => .repetition
  | .conditional .. => .conditionalSubpatterns

/-- The name of a node in diagnostics and outlines. -/
def typeName : Node → String
  | .leaf content => content.typeName
  | .sequence _ => "Sequence"
  | .disjunction .. => "Disjunction"
  | .capturingGroup .. => "CapturingGroup"
  | .nonCapturingGroup .. => "NonCapturingGroup"
  | .atomicGroup _ => "AtomicGroup"
  | .lookAround .. => "LookAround"
  | .repetition .. => "Repetition"
  | .conditional .. => "ConditionalSubpattern"

/-- Only leaves are moved into by anything but an empty step. -/
def transition : Node → Transition
  | .leaf content => content.transition
  | _ => .epsilon

/-- The children in reading order. -/
def children : Node → List StateId
  | .leaf _ => []
  | .sequence items => items
  | .disjunction alternatives _ => alternatives
  | .capturingGroup body .. | .atomicGroup body | .lookAround body .. => [body.element]
  | .nonCapturingGroup body .. => (body.map GroupBody.element).toList
  | .repetition element _ => [element]
  | .conditional condition yes _ no => condition :: yes :: no.toList

@[simp]
theorem children_leaf (content : Leaf) : (leaf content).children = [] := rfl

@[simp]
theorem children_sequence (items : List StateId) : (sequence items).children = items := rfl

@[simp]
theorem children_disjunction (alternatives : List StateId) (bars : List SourceCharacter) :
    (disjunction alternatives bars).children = alternatives := rfl

@[simp]
theorem children_capturingGroup (body : GroupBody) (name : Option String) (number : Nat) :
    (capturingGroup body name number).children = [body.element] := rfl

@[simp]
theorem children_nonCapturingGroup (body : Option GroupBody) (enabled disabled : FlagSet) :
    (nonCapturingGroup body enabled disabled).children =
      (body.map GroupBody.element).toList := rfl

@[simp]
theorem children_atomicGroup (body : GroupBody) :
    (atomicGroup body).children = [body.element] := rfl

@[simp]
theorem children_lookAround (body : GroupBody) (polarity : Polarity) (direction : Direction)
    (entry : StateId) : (lookAround body polarity direction entry).children = [body.element] := rfl

@[simp]
theorem children_repetition (element : StateId) (quantifier : Quantifier) :
    (repetition element quantifier).children = [element] := rfl

@[simp]
theorem children_conditional (condition yes : StateId) (bar : Option SourceCharacter)
    (no : Option StateId) :
    (conditional condition yes bar no).children = condition :: yes :: no.toList := rfl

/-- The body of a group. A node that is no group has none, and neither has a group that encloses
nothing; `isGroup` tells the two apart. -/
def body? : Node → Option GroupBody
  | .capturingGroup body .. | .atomicGroup body | .lookAround body .. => some body
  | .nonCapturingGroup body .. => body
  | _ => none

/-- Whether the node is written in parentheses of its own. -/
def isGroup : Node → Bool
  | .capturingGroup .. | .nonCapturingGroup .. | .atomicGroup _ | .lookAround .. |
    .conditional .. | .leaf (.referenceCondition _) => true
  | _ => false

end Node

end PatternGraph
