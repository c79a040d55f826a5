/-
This file decides how a string is written as a YAML scalar. Four styles are open to it. A string is
written plain if a reader takes the plain text for that very string: it must not look like another
type of scalar, nor contain what the block syntax would read as structure. A string with a line feed
is written as a literal block. Single quotes serve where the plain text would be misread, and double
quotes, with escapes, where the text cannot stand as it is in any of the other styles.

What the text contains is settled once, in `Traits`; the choice of style only reads the traits.
-/

import PatternGraph.Outline.Basic

namespace PatternGraph.Yaml

/-! ### Characters -/

/-- Whether a character may stand unescaped in the output. -/
def isPrintable (character : Char) : Bool :=
  let point := character.toNat
  point == 0x0A || (0x20 ≤ point && point ≤ 0x7E) || (0xA0 ≤ point && point ≤ 0xD7FF) ||
    (0xE000 ≤ point && point ≤ 0xFFFD && point != 0xFEFF) || 0x10000 ≤ point

/-- Whether a character ends a line. -/
def isBreak (character : Char) : Bool :=
  character == '\n' || character == '\r' || character == '\u0085' || character == '\u2028' ||
    character == '\u2029'

/-- Whether a character separates what stands on both sides of it. -/
def isBlankOrBreak (character : Char) : Bool :=
  character == ' ' || character == '\t' || isBreak character

/-- Whether the next character separates, which the end of the text does too. -/
def blankFollows : List Char → Bool
  | [] => true
  | character :: _ => isBlankOrBreak character

/-! ### Texts that read as other scalars -/

/-- Whether all characters are decimal digits. -/
def allDigits (characters : List Char) : Bool := characters.all Char.isDigit

/-- The text without a leading plus or minus. -/
def withoutSign : List Char → List Char
  | '+' :: rest | '-' :: rest => rest
  | characters => characters

/-- The text without a leading plus. -/
def withoutPlus : List Char → List Char
  | '+' :: rest => rest
  | characters => characters

/-- Whether the text is a zero and further digits, which no schema reads as a number. -/
def isZeroPadded (characters : List Char) : Bool :=
  match withoutSign characters with
  | '0' :: second :: rest => allDigits (second :: rest)
  | _ => false

/-- The value of a digit in a base. -/
def digitValue? (base : Nat) (character : Char) : Option Nat :=
  let value? :=
    if character.isDigit then some (character.toNat - '0'.toNat)
    else if 'a' ≤ character && character ≤ 'f' then some (character.toNat - 'a'.toNat + 10)
    else if 'A' ≤ character && character ≤ 'F' then some (character.toNat - 'A'.toNat + 10)
    else none
  value?.bind fun value => if value < base then some value else none

/-- The value of a row of digits in a base, continuing from `value`. -/
def digitsValue? (base value : Nat) : List Char → Option Nat
  | [] => some value
  | character :: rest =>
    (digitValue? base character).bind fun digit => digitsValue? base (value * base + digit) rest

/-- Whether the text is a number in a base, digits only, whose value is at most `greatest`. -/
def isNumberUpTo (greatest base : Nat) (digits : List Char) : Bool :=
  match digitsValue? base 0 digits with
  | some value => !digits.isEmpty && value ≤ greatest
  | none => false

/-- The digits after a sign of the base, with the base. -/
def radixDigits? : List Char → Option (Nat × List Char)
  | '0' :: 'x' :: digits => some (16, digits)
  | '0' :: 'o' :: digits => some (8, digits)
  | '0' :: 'b' :: digits => some (2, digits)
  | _ => none

/-- Whether the text is an integer in 128 bits: decimal, or with a sign of its base. -/
def isInteger (characters : List Char) : Bool :=
  let radix (greatest : Nat) (body : List Char) : Bool :=
    match radixDigits? body with
    | some (base, digits) => isNumberUpTo greatest base digits
    | none => false
  match characters with
  | '-' :: body =>
    radix 0x80000000000000000000000000000000 body ||
      (!isZeroPadded characters && isNumberUpTo 0x80000000000000000000000000000000 10 body)
  | _ =>
    radix 0xFFFFFFFFFFFFFFFFFFFFFFFFFFFFFFFF (withoutPlus characters) ||
      (!isZeroPadded characters &&
        isNumberUpTo 0xFFFFFFFFFFFFFFFFFFFFFFFFFFFFFFFF 10 (withoutPlus characters))

/-- The exponent after a mantissa: nothing, or an `e` and an integer. -/
def exponent? : List Char → Option Int
  | [] => some 0
  | mark :: rest =>
    if mark == 'e' || mark == 'E' then
      let digits := withoutSign rest
      if digits.isEmpty then none
      else (digitsValue? 10 0 digits).map fun value =>
        if rest.head? == some '-' then -(value : Int) else value
    else none

/-- Whether `mantissa * 10 ^ power` rounds to a finite double. The bound is half a unit above the
greatest finite double, from which on rounding gives infinity; it has 309 digits, so the number of
digits decides except close to it. -/
def isFinite (mantissa : Nat) (power : Int) : Bool :=
  let bound := Nat.pow 2 1024 - Nat.pow 2 970
  let digits := (Nat.toDigits 10 mantissa).length + power
  if mantissa == 0 || digits < 309 then true
  else if 309 < digits then false
  else if 0 ≤ power then mantissa * Nat.pow 10 power.toNat < bound
  else mantissa < bound * Nat.pow 10 (-power).toNat

/-- Whether the text is a decimal number, without sign, that has a finite double. -/
def isFiniteDecimal (characters : List Char) : Bool :=
  let whole := characters.takeWhile Char.isDigit
  let (fraction, tail) :=
    match characters.dropWhile Char.isDigit with
    | '.' :: rest => (rest.takeWhile Char.isDigit, rest.dropWhile Char.isDigit)
    | rest => ([], rest)
  if whole.isEmpty && fraction.isEmpty then false
  else
    match digitsValue? 10 0 (whole ++ fraction), exponent? tail with
    | some mantissa, some exponent => isFinite mantissa (exponent - fraction.length)
    | _, _ => false

/-- Whether the text is a floating point number: a finite decimal, an infinity or no number. -/
def isFloat (characters : List Char) : Bool :=
  let infinities := [".inf", ".Inf", ".INF"]
  let unsigned := withoutSign characters
  infinities.contains (String.ofList unsigned) ||
    [".nan", ".NaN", ".NAN"].contains (String.ofList characters) || isFiniteDecimal unsigned

/-- Whether the plain text would be read as something other than a string. -/
def readsAsOther (text : String) : Bool :=
  let characters := text.toList
  text.isEmpty || ["null", "Null", "NULL", "~"].contains text ||
    ["true", "True", "TRUE", "false", "False", "FALSE"].contains text ||
    isInteger characters || isZeroPadded characters || isFloat characters

/-! ### Traits of a text -/

/-- What matters about a text for the choice of its style. -/
structure Traits where
  /-- It contains what the block syntax reads as structure. -/
  indicator : Bool
  /-- It contains a line break. -/
  multiline : Bool
  /-- It contains a character that has to be escaped. -/
  special : Bool
  /-- It begins or ends with a blank or a line break. -/
  outerBlank : Bool
  /-- It ends with a blank. -/
  trailingSpace : Bool
  /-- A blank follows a line break. -/
  breakSpace : Bool
  /-- A line break follows a blank. -/
  spaceBreak : Bool

/-- Whether a character begins a structure when it is the first of a text. -/
def isLeadingIndicator (character : Char) (rest : List Char) : Bool :=
  "#,[]\x7b\x7d&*!|>'\"%@`".toList.contains character ||
    ((character == '?' || character == ':' || character == '-') && blankFollows rest)

/-- Whether a character past the first begins a structure, given the one before it. -/
def isInnerIndicator (previous character : Char) (rest : List Char) : Bool :=
  (character == ':' && blankFollows rest) || (character == '#' && isBlankOrBreak previous)

/-- Whether a structure begins past the first character. -/
def hasInnerIndicator (previous : Char) : List Char → Bool
  | [] => false
  | character :: rest =>
    isInnerIndicator previous character rest || hasInnerIndicator character rest

/-- Whether two neighbouring characters satisfy two conditions. -/
def hasPair (first second : Char → Bool) : List Char → Bool
  | left :: right :: rest => (first left && second right) || hasPair first second (right :: rest)
  | _ => false

/-- Whether the text begins like a mark between documents. -/
def beginsLikeMark : List Char → Bool
  | '-' :: '-' :: '-' :: _ | '.' :: '.' :: '.' :: _ => true
  | _ => false

/-- What matters about a text that is not empty. -/
def traits (characters : List Char) : Traits where
  indicator :=
    beginsLikeMark characters ||
      match characters with
      | [] => false
      | first :: rest => isLeadingIndicator first rest || hasInnerIndicator first rest
  multiline := characters.any isBreak
  special := characters.any fun character => !isPrintable character
  outerBlank :=
    let blank (character : Char) := character == ' ' || isBreak character
    (characters.head?.map blank).getD false || (characters.getLast?.map blank).getD false
  trailingSpace := characters.getLast? == some ' '
  breakSpace := hasPair isBreak (· == ' ') characters
  spaceBreak := hasPair (· == ' ') isBreak characters

/-! ### Styles -/

/-- How a scalar is written. -/
inductive Style
  | plain
  | singleQuoted
  | doubleQuoted
  | literal
  deriving DecidableEq

/-- Whether single quotes can hold a text. -/
def Traits.allowSingleQuotes (traits : Traits) : Bool :=
  !traits.breakSpace && !traits.spaceBreak && !traits.special

/-- Whether the plain text is read as a single scalar. -/
def Traits.allowPlain (traits : Traits) : Bool :=
  !traits.outerBlank && !traits.multiline && !traits.indicator && traits.allowSingleQuotes

/-- Whether a literal block can hold a text. -/
def Traits.allowLiteral (traits : Traits) : Bool :=
  !traits.trailingSpace && !traits.spaceBreak && !traits.special

/-- The style of a string. A key that has to stand on one line cannot be a literal block. -/
def styleOf (onOneLine : Bool) (text : String) : Style :=
  let found := traits text.toList
  let quoted := if found.allowSingleQuotes then Style.singleQuoted else .doubleQuoted
  if text.toList.contains '\n' then
    if found.allowLiteral && !onOneLine then .literal else .doubleQuoted
  else if readsAsOther text || !found.allowPlain then quoted
  else .plain

/-! ### Writing -/

/-- A digit of a hexadecimal number, with capital letters. -/
def hexDigit (value : Nat) : Char := (Nat.digitChar (value % 16)).toUpper

/-- A hexadecimal number of a width. -/
def hexDigits (width value : Nat) : List Char :=
  (List.range width).reverse.map fun place => hexDigit (value / Nat.pow 16 place)

/-- A character within double quotes. -/
def escapeCharacter (character : Char) : List Char :=
  let point := character.toNat
  if isPrintable character && !isBreak character && character != '"' && character != '\\' then
    [character]
  else
    match [(0x00, '0'), (0x07, 'a'), (0x08, 'b'), (0x09, 't'), (0x0A, 'n'), (0x0B, 'v'),
        (0x0C, 'f'), (0x0D, 'r'), (0x1B, 'e'), (0x22, '"'), (0x5C, '\\'), (0x85, 'N'),
        (0x2028, 'L'), (0x2029, 'P')].lookup point with
    | some letter => ['\\', letter]
    | none =>
      if point ≤ 0xFF then '\\' :: 'x' :: hexDigits 2 point
      else if point ≤ 0xFFFF then '\\' :: 'u' :: hexDigits 4 point
      else '\\' :: 'U' :: hexDigits 8 point

/-- Text within double quotes. -/
def doubleQuoted (characters : List Char) : List Char :=
  '"' :: characters.flatMap escapeCharacter ++ ['"']

/-- Text within single quotes up to the closing one. After a line break, which can only be a
separator of lines or paragraphs here, the text goes on at the indentation of the scalar. -/
def singleQuotedBody (indent : Nat) (afterBreak : Bool) : List Char → List Char
  | [] => if afterBreak then List.replicate indent ' ' else []
  | character :: rest =>
    if character == ' ' then character :: singleQuotedBody indent afterBreak rest
    else if isBreak character then character :: singleQuotedBody indent true rest
    else
      (if afterBreak then List.replicate indent ' ' else []) ++
        (if character == '\'' then ['\'', '\''] else [character]) ++
        singleQuotedBody indent false rest

/-- Text within single quotes, which are doubled inside. -/
def singleQuoted (indent : Nat) (characters : List Char) : List Char :=
  '\'' :: singleQuotedBody indent false characters ++ ['\'']

/-- The hints after the sign of a literal block: its indentation when the text begins with a blank
or a line break, and what becomes of the line breaks at its end. -/
def literalHints (characters : List Char) : List Char :=
  let begins := (characters.head?.map fun first => first == ' ' || isBreak first).getD false
  let ending :=
    match characters.reverse with
    | last :: before =>
      if !isBreak last then ['-']
      else if (before.head?.map isBreak).getD true then ['+']
      else []
    | [] => ['-']
  (if begins then ['2'] else []) ++ ending

/-- The lines of a literal block, every line that is not empty indented. -/
def literalBody (indent : Nat) (atLineStart : Bool) : List Char → List Char
  | [] => []
  | character :: rest =>
    if isBreak character then character :: literalBody indent true rest
    else
      (if atLineStart then List.replicate indent ' ' else []) ++
        character :: literalBody indent false rest

/-- A literal block without the line break that its end may still need. -/
def literal (indent : Nat) (characters : List Char) : List Char :=
  '|' :: literalHints characters ++ '\n' :: literalBody indent true characters

/-- A string as a scalar, with the indentation for lines after its first. -/
def scalar (onOneLine : Bool) (indent : Nat) (text : String) : String :=
  let characters := text.toList
  String.ofList <|
    match styleOf onOneLine text with
    | .plain => characters
    | .singleQuoted => singleQuoted indent characters
    | .doubleQuoted => doubleQuoted characters
    | .literal => literal indent characters

end PatternGraph.Yaml
