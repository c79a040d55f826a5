/-
This file defines bracketed character classes. What stands between the brackets forms a small tree
of its own, whose elements are not states of an automaton: they are never repeated or linked, and
only the class as a whole takes part in matching. Unions, intersections and nested classes have
elements below them; all other elements are items of a single range of the text.
-/

import PatternGraph.Flags
import PatternGraph.Syntax.Character
import PatternGraph.Syntax.EscapedClass

namespace PatternGraph

/-- One end of a range of characters. -/
structure Endpoint where
  range : TextRange
  character : Character
  deriving DecidableEq

/-- The characters between two endpoints. -/
structure CharacterSpan where
  lower : Endpoint
  upper : Endpoint
  deriving DecidableEq

/-- Whether a code point lies between the endpoints, flags aside. -/
def CharacterSpan.contains (span : CharacterSpan) (codePoint : Nat) : Bool :=
  span.lower.character.codePoint ≤ codePoint && codePoint ≤ span.upper.character.codePoint

/-- An element of a character class without elements below it. -/
inductive ClassItem
  | span (span : CharacterSpan)
  | escaped (escaped : EscapedClass)
  | character (character : Character)
  | miscEscape
  | posix (negated : Bool) (property : String)
  deriving DecidableEq

/-- Where an element of a character class was written and the flags active there. -/
structure ClassSite where
  range : TextRange
  flags : FlagSet
  deriving DecidableEq

/-- The opening of a bracketed class, with the mark that negates it. -/
structure ClassOpening where
  bracket : SourceCharacter
  negated : Bool
  deriving DecidableEq

/-- An element of a character class. -/
inductive ClassElement
  | item (site : ClassSite) (item : ClassItem)
  | union (site : ClassSite) (elements : List ClassElement)
  | intersection (site : ClassSite) (elements : List ClassElement) (operators : List Token)
  | nested (site : ClassSite) (opening : ClassOpening) (contents : ClassElement)

/-- A bracketed character class. -/
structure CharacterClass where
  opening : ClassOpening
  contents : ClassElement

/-- The kind of a class element. -/
inductive ClassElementKind
  | intersection
  | union
  | characterRange
  | escapedCharacterClass
  | plainCharacter
  /-- An escaped character outside the Basic Multilingual Plane. -/
  | unicodeCodePoint
  | miscEscapeSequence
  | nestedCharacterClass
  | posixClass
  deriving DecidableEq

def ClassElementKind.name : ClassElementKind → String
  | intersection => "Intersection"
  | union => "Union"
  | characterRange => "CharacterRange"
  | escapedCharacterClass => "EscapedCharacterClass"
  | plainCharacter => "PlainCharacter"
  | unicodeCodePoint => "UnicodeCodePoint"
  | miscEscapeSequence => "MiscEscapeSequence"
  | nestedCharacterClass => "NestedCharacterClass"
  | posixClass => "PosixClass"

def ClassItem.kind : ClassItem → ClassElementKind
  | .span _ => .characterRange
  | .escaped _ => .escapedCharacterClass
  | .character literal =>
    if literal.isEscape && literal.isSupplementary then .unicodeCodePoint else .plainCharacter
  | .miscEscape => .miscEscapeSequence
  | .posix .. => .posixClass

namespace ClassElement

def site : ClassElement → ClassSite
  | .item place _ | .union place _ | .intersection place .. | .nested place .. => place

def kind : ClassElement → ClassElementKind
  | .item _ content => content.kind
  | .union .. => .union
  | .intersection .. => .intersection
  | .nested .. => .nestedCharacterClass

/-- Whether the element is of one of the given kinds. -/
def isOneOf (element : ClassElement) (kinds : List ClassElementKind) : Bool :=
  kinds.contains element.kind

/-- The elements directly below. -/
def children : ClassElement → List ClassElement
  | .item .. => []
  | .union _ elements | .intersection _ elements _ => elements
  | .nested _ _ contents => [contents]

/-- The text of the pattern that the element was written as. -/
def text (source : Source) (element : ClassElement) : String := source.textAt element.site.range

end ClassElement

end PatternGraph
