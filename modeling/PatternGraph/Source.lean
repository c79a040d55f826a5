/-
The pattern text under analysis, together with the dialect it is written in. Syntax elements never
hold text of their own: they keep a range and resolve it against the source on demand, so
`Source.textAt` is the only place where text is cut out of the pattern.

The features of a source are those of its dialect and the extra ones it was given. They are
answered by membership and listed in the order in which `Feature` declares them.
-/

import PatternGraph.Text.Range
import PatternGraph.Text.Slice

namespace PatternGraph

/-- A syntax feature in which dialects differ. -/
inductive Feature
  | recursion
  | conditionalSubpattern
  | posixCharacterClass
  | pythonSyntaxGroupName
  | dotnetSyntaxGroupName
  | perlSyntaxGroupName
  | javaSyntaxGroupName
  | atomicGroup
  | possessiveQuantifier
  | escapedCharacterClass
  | unescapedCurlyBracket
  /-- Backslashes must themselves be escaped in the strings of the host language. -/
  | backslashEscaping
  deriving DecidableEq

namespace Feature

/-- Every feature, in the order in which features are listed. -/
def all : List Feature :=
  [recursion, conditionalSubpattern, posixCharacterClass, pythonSyntaxGroupName,
    dotnetSyntaxGroupName, perlSyntaxGroupName, javaSyntaxGroupName, atomicGroup,
    possessiveQuantifier, escapedCharacterClass, unescapedCurlyBracket, backslashEscaping]

/-- The name under which a feature is written in settings. -/
def name : Feature → String
  | recursion => "recursion"
  | conditionalSubpattern => "conditional_subpattern"
  | posixCharacterClass => "posix_character_class"
  | pythonSyntaxGroupName => "python_syntax_group_name"
  | dotnetSyntaxGroupName => "dotnet_syntax_group_name"
  | perlSyntaxGroupName => "perl_syntax_group_name"
  | javaSyntaxGroupName => "java_syntax_group_name"
  | atomicGroup => "atomic_group"
  | possessiveQuantifier => "possessive_quantifier"
  | escapedCharacterClass => "escaped_character_class"
  | unescapedCurlyBracket => "unescaped_curly_bracket"
  | backslashEscaping => "backslash_escaping"

def ofName? (name : String) : Option Feature := all.find? fun feature => feature.name == name

end Feature

/-- The host language whose flavour of patterns is analysed. -/
inductive Dialect
  | java
  | php
  | python
  deriving DecidableEq

namespace Dialect

def all : List Dialect := [java, php, python]

/-- The name under which a dialect is written in settings. -/
def name : Dialect → String
  | java => "java"
  | php => "php"
  | python => "python"

/-- The name under which a dialect appears in log records. -/
def title : Dialect → String
  | java => "Java"
  | php => "Php"
  | python => "Python"

def ofName? (name : String) : Option Dialect := all.find? fun dialect => dialect.name == name

/-- The features that a dialect has of its own. -/
def features : Dialect → List Feature
  | java => [.javaSyntaxGroupName]
  | php => [.recursion, .conditionalSubpattern, .posixCharacterClass]
  | python =>
    [.recursion, .conditionalSubpattern, .pythonSyntaxGroupName, .unescapedCurlyBracket]

end Dialect

/-- A pattern text, its dialect and the features enabled on top of the dialect's own. -/
structure Source where
  text : String
  dialect : Dialect
  extraFeatures : List Feature := []

namespace Source

/-- Whether a feature belongs to the dialect or was enabled on top of it. -/
def supports (source : Source) (feature : Feature) : Bool :=
  source.dialect.features.contains feature || source.extraFeatures.contains feature

/-- The supported features, each once, in declaration order. -/
def features (source : Source) : List Feature := Feature.all.filter source.supports

/-- The length of the pattern in bytes. -/
def byteLength (source : Source) : Nat := Text.byteLength source.text.toList

/-- The text covered by a range. An ending past the end of the pattern counts as the end. The text
is empty for an element that was not written and for a range that cuts through a character. -/
def textAt (source : Source) (range : TextRange) : String :=
  match range.span? with
  | some (start, stop) => String.ofList (Text.clampedSlice start stop source.text.toList)
  | none => ""

end Source

/-- A single logical character of the pattern, possibly written as an escape sequence. -/
structure SourceCharacter where
  range : TextRange
  character : Char
  isEscape : Bool := false
  deriving DecidableEq

/-- Any slice of the pattern that matters as a whole, such as the header of a group, a bound of a
curly brace quantifier or an operator of a character class. -/
structure Token where
  range : TextRange
  deriving DecidableEq, Inhabited

end PatternGraph
