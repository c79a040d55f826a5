/-
This file writes text in small letters, so that names can be compared in any case. The names of this
library consist of ASCII characters. Of all characters the ASCII capitals have small forms among
those, and so has the Kelvin sign, whose small form is the letter k. Every other character stays as
it is: its small form could never be part of a name.
-/

namespace PatternGraph.Text

/-- The small letter that a character has among the ASCII characters, the character itself if it has
none. -/
def smallLetter (character : Char) : Char :=
  if character == '\u212a' then 'k' else character.toLower

/-- A text with small letters for the capitals that have ASCII ones. -/
def inSmallLetters (text : String) : String := text.map smallLetter

end PatternGraph.Text
