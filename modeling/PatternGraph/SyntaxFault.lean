/-
The ways in which a syntax element can be written wrongly. Each is found while the element is built
from its source text, before any state of an automaton exists, and each names the place or the
letter to complain about.
-/

import PatternGraph.Text.Range

namespace PatternGraph

/-- Why a syntax element cannot be built from what was written. -/
inductive SyntaxFault
  /-- A class marker that asks for a property in braces stands without one. -/
  | missingProperty (marker : Char) (range : TextRange)
  /-- A property in braces follows a class marker that takes none. -/
  | unexpectedProperty (marker : Char) (range : TextRange)
  /-- The bound of a curly brace quantifier is no 32-bit numeral. -/
  | invalidBound (text : String) (range : TextRange)
  /-- A letter among inline flags has no meaning. -/
  | unknownFlag (letter : Char)
  deriving DecidableEq

namespace SyntaxFault

/-- The name of the kind of fault, without its particulars. -/
def name : SyntaxFault → String
  | missingProperty .. => "MissingProperty"
  | unexpectedProperty .. => "UnexpectedProperty"
  | invalidBound .. => "InvalidQuantifierBound"
  | unknownFlag .. => "UnknownFlag"

/-- The diagnostic shown to the user. -/
def message : SyntaxFault → String
  | missingProperty marker range =>
    "\\" ++ marker.toString ++ " needs a property string at " ++ range.render
  | unexpectedProperty marker range =>
    "Only \\p can have a property string, found \\" ++ marker.toString ++ " at " ++ range.render
  | invalidBound text range =>
    "Invalid quantifier bound '" ++ text ++ "' at " ++ range.render
  | unknownFlag letter => "Unknown flag '" ++ letter.toString ++ "'"

end SyntaxFault

end PatternGraph
