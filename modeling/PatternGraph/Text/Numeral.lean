/-
This file reads unsigned decimal numerals as they are written in quantifier bounds, in numerical
back-references and in settings: an optional plus sign, then one or more ASCII digits, leading
zeros allowed, with a value below a given bound. Nothing else is a numeral, so blanks, a minus
sign, a second plus sign and digits of other scripts are all refused, and no value ever wraps.
-/

namespace PatternGraph.Text

/-- The value of an ASCII digit. -/
def digit? (character : Char) : Option Nat :=
  if character.isDigit then some (character.toNat - '0'.toNat) else none

/-- The value of a row of digits, most significant first, continuing from `value`. -/
def digits? (value : Nat) : List Char → Option Nat
  | [] => some value
  | character :: rest => (digit? character).bind fun digit => digits? (value * 10 + digit) rest

/-- The value of a numeral below `bound`. -/
def numeralBelow? (bound : Nat) (characters : List Char) : Option Nat :=
  let digits := match characters with
    | '+' :: rest => rest
    | _ => characters
  if digits.isEmpty then none
  else (digits? 0 digits).bind fun value => if value < bound then some value else none

/-- The value of a numeral that fits in 32 bits. -/
def numeral32? (text : String) : Option Nat := numeralBelow? 0x100000000 text.toList

/-- The value of a numeral that fits in 64 bits. -/
def numeral64? (text : String) : Option Nat := numeralBelow? 0x10000000000000000 text.toList

end PatternGraph.Text
