/-
This file lists the zero-width assertions. Each is written with a key character; the word boundary
and the grapheme cluster boundary share theirs, and the key alone then means the word boundary.
-/

namespace PatternGraph

/-- A zero-width assertion about the place in the input. -/
inductive Boundary
  | lineStart
  | lineEnd
  | word
  | graphemeCluster
  | nonWord
  | inputStart
  | previousMatchEnd
  | inputEndFinalTerminator
  | inputEnd
  deriving DecidableEq

namespace Boundary

/-- Every boundary, in the order in which a key is looked up. -/
def all : List Boundary :=
  [lineStart, lineEnd, word, graphemeCluster, nonWord, inputStart, previousMatchEnd,
    inputEndFinalTerminator, inputEnd]

def name : Boundary → String
  | lineStart => "LineStart"
  | lineEnd => "LineEnd"
  | word => "Word"
  | graphemeCluster => "UnicodeExtendedGraphemeCluster"
  | nonWord => "NonWord"
  | inputStart => "InputStart"
  | previousMatchEnd => "PreviousMatchEnd"
  | inputEndFinalTerminator => "InputEndFinalTerminator"
  | inputEnd => "InputEnd"

def ofName? (name : String) : Option Boundary := all.find? fun boundary => boundary.name == name

/-- The character that a boundary is written with, after its backslash if it takes one. -/
def key : Boundary → Char
  | lineStart => '^'
  | lineEnd => '$'
  | word | graphemeCluster => 'b'
  | nonWord => 'B'
  | inputStart => 'A'
  | previousMatchEnd => 'G'
  | inputEndFinalTerminator => 'Z'
  | inputEnd => 'z'

/-- The first boundary written with a key. -/
def ofKey? (key : Char) : Option Boundary := all.find? fun boundary => boundary.key == key

/-- Whether the boundary holds at the end of a line or of the input only. -/
def isEnd : Boundary → Bool
  | lineEnd | inputEnd | inputEndFinalTerminator => true
  | _ => false

/-- Whether the boundary holds before a line break that ends the input, so that a line break can
still follow it. -/
def allowsLineBreak : Boundary → Bool
  | lineEnd | inputEndFinalTerminator => true
  | _ => false

end Boundary

end PatternGraph
