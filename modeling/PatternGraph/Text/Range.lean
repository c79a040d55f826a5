/-
This file defines offset ranges, the answer of every syntax element to the question which part of
the pattern text produced it. A range holds byte offsets into the UTF-8 form of the pattern. It is
half open: the beginning belongs to it, the ending does not.

Offsets are integers rather than naturals because a negative offset is meaningful: it marks an
element that was not written in the pattern at all. Such a range covers no bytes, so `span?` gives
`none` for it and every text read at it is empty.
-/

namespace PatternGraph

/-- A stretch of the pattern text, from the byte at `beginning` up to the byte before `ending`. -/
structure TextRange where
  beginning : Int
  ending : Int
  deriving DecidableEq, Inhabited

namespace TextRange

/-- A negative offset on either side marks an element that was not written in the pattern. -/
def isUnwritten (range : TextRange) : Bool := range.beginning < 0 || range.ending < 0

/-- The same beginning with another ending. -/
def endingAt (range : TextRange) (ending : Int) : TextRange := { range with ending }

/-- The stretch from the beginning of `first` to the ending of `last`, such as a group from its
opening parenthesis through its closing one. -/
def through (first last : TextRange) : TextRange := first.endingAt last.ending

/-- Whether `inner` lies entirely within `outer`. -/
def covers (outer inner : TextRange) : Bool :=
  outer.beginning ≤ inner.beginning && inner.ending ≤ outer.ending

/-- The number of bytes between the two offsets, zero when they are the wrong way round. -/
def length (range : TextRange) : Nat := (range.ending - range.beginning).toNat

def isEmpty (range : TextRange) : Bool := range.length == 0

/-- The covered offsets as naturals, `none` for an element that was not written. -/
def span? (range : TextRange) : Option (Nat × Nat) :=
  if range.isUnwritten then none else some (range.beginning.toNat, range.ending.toNat)

/-- The range of a span of machine offsets. A range holds 32-bit offsets in two's complement, so
only the low 32 bits of each offset are kept; offsets below `2 ^ 31` are kept unchanged. -/
def ofSpan (start stop : Nat) : TextRange :=
  ⟨Int.bmod start 0x100000000, Int.bmod stop 0x100000000⟩

/-- The two offsets with a hyphen between them. -/
def render (range : TextRange) : String :=
  toString range.beginning ++ "-" ++ toString range.ending

/-- An offset read as an unsigned 64-bit word, the form in which a position is looked up in the
text. A negative offset becomes larger than every text is long. -/
def wordOfOffset (offset : Int) : Nat := (offset % 0x10000000000000000).toNat

end TextRange

end PatternGraph
