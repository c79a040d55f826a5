/-
This file defines escaped character classes: a backslash and a marker letter, as in a class of
digits, or a marker `p` followed by a property in braces. The two ways of building one refuse the
two wrong combinations, so a class has a property exactly when its marker is a `p` in either case,
and the type says so.
-/

import PatternGraph.Source
import PatternGraph.SyntaxFault
import PatternGraph.Text.Uppercase

namespace PatternGraph

/-- Whether a marker asks for a property in braces. -/
def takesProperty (marker : Char) : Bool := marker == 'p' || marker == 'P'

/-- An escaped character class. -/
structure EscapedClass where
  marker : Char
  property : Option String
  property_iff : property.isSome = takesProperty marker
  deriving DecidableEq

namespace EscapedClass

/-- A class without property; the range serves the complaint about a missing one. -/
def plain? (marker : Char) (range : TextRange) : Except SyntaxFault EscapedClass :=
  if takes : takesProperty marker then .error (.missingProperty marker range)
  else .ok ⟨marker, none, by simpa using takes⟩

/-- A class with a property; the range serves the complaint about an unexpected one. -/
def withProperty? (marker : Char) (property : String) (range : TextRange) :
    Except SyntaxFault EscapedClass :=
  if takes : takesProperty marker then .ok ⟨marker, some property, by simpa using takes.symm⟩
  else .error (.unexpectedProperty marker range)

/-- An uppercase marker stands for the complement of the class. -/
def isNegation (escaped : EscapedClass) : Bool := Text.isUppercase escaped.marker

def isProperty (escaped : EscapedClass) : Bool := takesProperty escaped.marker

/-- The class as it is written in a pattern. -/
def render (escaped : EscapedClass) : String :=
  match escaped.property with
  | some property => "\\" ++ escaped.marker.toString ++ "\x7b" ++ property ++ "\x7d"
  | none => "\\" ++ escaped.marker.toString

/-- The class written by a backslash and a marker, with its range. -/
def ofMarker? (backslash marker : SourceCharacter) :
    Except SyntaxFault (TextRange × EscapedClass) :=
  let range := backslash.range.through marker.range
  (plain? marker.character range).map fun escaped => (range, escaped)

/-- The class written by a backslash, a marker and a property between braces, with its range. The
property is the text strictly between the braces. -/
def ofBraces? (source : Source) (backslash marker opening closing : SourceCharacter) :
    Except SyntaxFault (TextRange × EscapedClass) :=
  let range := backslash.range.through closing.range
  let property := source.textAt ⟨opening.range.beginning + 1, closing.range.beginning⟩
  (withProperty? marker.character property range).map fun escaped => (range, escaped)

end EscapedClass

end PatternGraph
