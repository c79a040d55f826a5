/-
This file defines back-references, which match again what a capturing group has matched. A named
reference delimits the name of the group; a numerical one is a row of digits. The group itself is
found only after the whole pattern was read, because it may be written further on.
-/

import PatternGraph.Source
import PatternGraph.StateId
import PatternGraph.Text.Numeral

namespace PatternGraph

structure BackReference where
  groupName : String
  /-- The letter that introduces a name, absent for a numerical reference. -/
  key : Option SourceCharacter
  /-- The state of the capturing group, once it is known. -/
  group : Option StateId
  deriving DecidableEq

namespace BackReference

/-- Whether a character opens a delimited group name. -/
def opensName (character : Char) : Bool :=
  character == '<' || character == '\'' || character == '\x7b' || character == '='

/-- The reference between two characters. After an opening delimiter the name lies strictly between
`start` and `stop`; otherwise the text runs from `start` through `stop`. -/
def read (source : Source) (key : Option SourceCharacter) (start stop : SourceCharacter) :
    BackReference where
  groupName :=
    if opensName start.character then
      source.textAt ⟨start.range.beginning + 1, stop.range.beginning⟩
    else source.textAt (start.range.through stop.range)
  key
  group := none

def isNamed (reference : BackReference) : Bool := reference.key.isSome

def isNumerical (reference : BackReference) : Bool := reference.key.isNone

/-- The number of the referenced group; a reference with a key never has one. -/
def groupNumber? (reference : BackReference) : Option Nat :=
  if reference.isNumerical then Text.numeral32? reference.groupName else none

end BackReference

end PatternGraph
