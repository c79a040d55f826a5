/-
This file defines the characters that a pattern matches literally. A character is a code point, and
dialects that work on 16-bit units may write one half of a surrogate pair, so not every code point
of a pattern is a Unicode scalar value: `scalar?` is `none` for those, and the text that stands for
them is the replacement character.
-/

namespace PatternGraph

/-- A literal character of a pattern. -/
structure Character where
  codePoint : Nat
  /-- Whether it was written as an escape sequence. -/
  isEscape : Bool
  deriving DecidableEq

namespace Character

/-- The scalar value, absent for surrogate halves and for numbers past the last code point. -/
def scalar? (character : Character) : Option Char :=
  if character.codePoint.isValidChar then some (Char.ofNat character.codePoint) else none

/-- The character as text, with U+FFFD for what is no scalar value. -/
def text (character : Character) : String := (character.scalar?.getD '\uFFFD').toString

/-- Whether the code point lies outside the Basic Multilingual Plane. -/
def isSupplementary (character : Character) : Bool := 0xFFFF < character.codePoint

end Character

end PatternGraph
