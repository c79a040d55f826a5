/-
This file reads text by byte offsets. Offsets count the bytes of the UTF-8 form, in which a
character takes one to four bytes, while the text itself is kept as characters: a cut is possible
only where a character begins or the text ends, and `dropBytes` and `takeBytes` answer `none`
everywhere else. Every function here recurses on the characters, so a byte form is never built.
-/

namespace PatternGraph.Text

/-- The number of bytes of the UTF-8 form. -/
def byteLength : List Char → Nat
  | [] => 0
  | character :: rest => character.utf8Size + byteLength rest

/-- The text from byte `count` on, if that is where a character begins or the text ends. -/
def dropBytes (count : Nat) : List Char → Option (List Char)
  | [] => if count = 0 then some [] else none
  | character :: rest =>
    if count = 0 then some (character :: rest)
    else if count < character.utf8Size then none
    else dropBytes (count - character.utf8Size) rest

/-- The text before byte `count`, if that is where a character begins or the text ends. -/
def takeBytes (count : Nat) : List Char → Option (List Char)
  | [] => if count = 0 then some [] else none
  | character :: rest =>
    if count = 0 then some []
    else if count < character.utf8Size then none
    else (takeBytes (count - character.utf8Size) rest).map (character :: ·)

/-- The text between two byte offsets, if both are where a character begins or the text ends. -/
def slice? (start stop : Nat) (characters : List Char) : Option (List Char) :=
  (dropBytes start characters).bind (takeBytes (stop - start))

/-- The text between two byte offsets, however they lie. The end counts as at most the length of
the text and the start as at most the end; a cut inside a character gives the empty text. -/
def clampedSlice (start stop : Nat) (characters : List Char) : List Char :=
  let stop := min stop (byteLength characters)
  (slice? (min start stop) stop characters).getD []

/-- The character that begins at a byte offset. -/
def characterAt? (offset : Nat) (characters : List Char) : Option Char :=
  (dropBytes offset characters).bind List.head?

end PatternGraph.Text
