/-
This file reads the smallest parts of a TOML document: blanks and comments, strings in their four
spellings, integers, booleans and the keys made of them. Each reader takes a text and gives what it
read with the rest of the text, or `none` if the text does not begin with such a part.

Numbers with a fraction are recognized so that a document may contain them, but their value is not
kept; dates are not read.
-/

import PatternGraph.Interchange.Value

namespace PatternGraph.Toml

/-- A reader of a part of a document. -/
abbrev Reader (α : Type) := List Char → Option (α × List Char)

/-- Whether a character may separate the parts of a line. -/
def isBlank (character : Char) : Bool := character == ' ' || character == '\t'

def skipBlanks (text : List Char) : List Char := text.dropWhile isBlank

/-- Whether a character may stand in comments and on a line of a string. -/
def isTextCharacter (character : Char) : Bool :=
  character == '\t' || (' ' ≤ character && character != '\x7f')

/-- The text after a comment, which runs to the end of its line. -/
def skipComment (text : List Char) : List Char :=
  match text with
  | '#' :: rest => rest.dropWhile isTextCharacter
  | _ => text

/-- The text after a line break. -/
def afterBreak? : List Char → Option (List Char)
  | '\n' :: rest | '\r' :: '\n' :: rest => some rest
  | _ => none

/-- The text after the end of a line, with blanks and a comment before it. -/
def afterLine? (text : List Char) : Option (List Char) :=
  match skipComment (skipBlanks text) with
  | [] => some []
  | rest => afterBreak? rest

/-- The text after blanks, line breaks and comments. -/
def skipSpace (fuel : Nat) (text : List Char) : List Char :=
  match fuel with
  | 0 => text
  | fuel + 1 =>
    let rest := skipComment (skipBlanks text)
    match afterBreak? rest with
    | some next => skipSpace fuel next
    | none => rest

/-! ### Strings -/

def hexValue? (character : Char) : Option Nat :=
  if character.isDigit then some (character.toNat - '0'.toNat)
  else if 'a' ≤ character && character ≤ 'f' then some (character.toNat - 'a'.toNat + 10)
  else if 'A' ≤ character && character ≤ 'F' then some (character.toNat - 'A'.toNat + 10)
  else none

/-- The character with a hexadecimal number, if it is a scalar value. -/
def scalarOf? (digits : List Char) : Option Char :=
  let value? := digits.foldl
    (fun value? digit => value?.bind fun value => (hexValue? digit).map (value * 16 + ·)) (some 0)
  value?.bind fun value => if value.isValidChar then some (Char.ofNat value) else none

/-- The character that a single letter stands for after a backslash. -/
def escaped? : Char → Option Char
  | 'b' => some '\x08'
  | 't' => some '\t'
  | 'n' => some '\n'
  | 'f' => some '\x0c'
  | 'r' => some '\r'
  | '"' => some '"'
  | '\\' => some '\\'
  | _ => none

/-- Puts a character, if there is one, before what was read. -/
def prepend? (character? : Option Char) (read? : Option (List Char × List Char)) :
    Option (List Char × List Char) :=
  character?.bind fun character => read?.map fun (body, rest) => (character :: body, rest)

/-- The rest of a string in quotation marks on one line. -/
def basicBody : Reader (List Char)
  | '"' :: rest => some ([], rest)
  | '\\' :: 'u' :: a :: b :: c :: d :: rest => prepend? (scalarOf? [a, b, c, d]) (basicBody rest)
  | '\\' :: 'U' :: a :: b :: c :: d :: e :: f :: g :: h :: rest =>
    prepend? (scalarOf? [a, b, c, d, e, f, g, h]) (basicBody rest)
  | '\\' :: letter :: rest => prepend? (escaped? letter) (basicBody rest)
  | character :: rest =>
    if isTextCharacter character then prepend? (some character) (basicBody rest) else none
  | [] => none

/-- The rest of a string in apostrophes on one line. -/
def literalBody : Reader (List Char)
  | '\'' :: rest => some ([], rest)
  | character :: rest =>
    if isTextCharacter character then prepend? (some character) (literalBody rest) else none
  | [] => none

/-- Where a string over several lines has come to. -/
inductive FoldState
  | inText
  /-- After a backslash, before the line break that it removes. -/
  | beforeBreak
  /-- After a removed line break, among the blanks and line breaks removed with it. -/
  | removing
  deriving DecidableEq

/-- Nothing but blanks may come between a backslash and the line break that it removes. -/
def FoldState.allowing {α : Type} (state : FoldState) (read? : Option α) : Option α :=
  if state == .beforeBreak then none else read?

/-- The rest of a string in triple quotation marks. -/
def multilineBasicBody (state : FoldState) : Reader (List Char)
  | '\r' :: '\n' :: rest | '\n' :: rest =>
    if state == .inText then prepend? (some '\n') (multilineBasicBody .inText rest)
    else multilineBasicBody .removing rest
  | '"' :: '"' :: '"' :: '"' :: '"' :: rest => state.allowing (some (['"', '"'], rest))
  | '"' :: '"' :: '"' :: '"' :: rest => state.allowing (some (['"'], rest))
  | '"' :: '"' :: '"' :: rest => state.allowing (some ([], rest))
  | '\\' :: '\r' :: '\n' :: rest | '\\' :: '\n' :: rest =>
    state.allowing (multilineBasicBody .removing rest)
  | '\\' :: 'u' :: a :: b :: c :: d :: rest =>
    state.allowing (prepend? (scalarOf? [a, b, c, d]) (multilineBasicBody .inText rest))
  | '\\' :: 'U' :: a :: b :: c :: d :: e :: f :: g :: h :: rest =>
    state.allowing
      (prepend? (scalarOf? [a, b, c, d, e, f, g, h]) (multilineBasicBody .inText rest))
  | '\\' :: next :: rest =>
    state.allowing <|
      if isBlank next then multilineBasicBody .beforeBreak rest
      else prepend? (escaped? next) (multilineBasicBody .inText rest)
  | character :: rest =>
    if isBlank character && state != .inText then multilineBasicBody state rest
    else if isTextCharacter character then
      state.allowing (prepend? (some character) (multilineBasicBody .inText rest))
    else none
  | [] => none

/-- The rest of a string in triple apostrophes. -/
def multilineLiteralBody : Reader (List Char)
  | '\'' :: '\'' :: '\'' :: '\'' :: '\'' :: rest => some (['\'', '\''], rest)
  | '\'' :: '\'' :: '\'' :: '\'' :: rest => some (['\''], rest)
  | '\'' :: '\'' :: '\'' :: rest => some ([], rest)
  | '\r' :: '\n' :: rest => prepend? (some '\n') (multilineLiteralBody rest)
  | '\n' :: rest => prepend? (some '\n') (multilineLiteralBody rest)
  | character :: rest =>
    if isTextCharacter character then prepend? (some character) (multilineLiteralBody rest)
    else none
  | [] => none

/-- The text without a line break at its beginning. -/
def withoutFirstBreak (text : List Char) : List Char := (afterBreak? text).getD text

/-- A string in quotation marks or apostrophes on one line. -/
def quotedLine : Reader String
  | '"' :: rest => (basicBody rest).map fun (body, rest) => (String.ofList body, rest)
  | '\'' :: rest => (literalBody rest).map fun (body, rest) => (String.ofList body, rest)
  | _ => none

/-- A string in any of the four spellings. -/
def quoted : Reader String
  | '"' :: '"' :: '"' :: rest =>
    (multilineBasicBody .inText (withoutFirstBreak rest)).map fun (body, rest) =>
      (String.ofList body, rest)
  | '\'' :: '\'' :: '\'' :: rest =>
    (multilineLiteralBody (withoutFirstBreak rest)).map fun (body, rest) =>
      (String.ofList body, rest)
  | text => quotedLine text

/-! ### Keys -/

/-- A key has fewer parts than this, and a value stands within fewer lists and tables on one
line. -/
def depthLimit : Nat := 80

def isBareKeyCharacter (character : Char) : Bool :=
  character.isAlphanum || character == '_' || character == '-'

/-- One part of a key. -/
def simpleKey (text : List Char) : Option (String × List Char) :=
  match quotedLine text with
  | some found => some found
  | none =>
    let name := text.takeWhile isBareKeyCharacter
    if name.isEmpty then none
    else some (String.ofList name, text.dropWhile isBareKeyCharacter)

/-- The parts of a key with dots between them, blanks around each. -/
def keyParts (fuel : Nat) (text : List Char) : Option (List String × List Char) :=
  match fuel with
  | 0 => none
  | fuel + 1 =>
    (simpleKey (skipBlanks text)).bind fun (name, rest) =>
      match skipBlanks rest with
      | '.' :: rest => (keyParts fuel rest).map fun (names, rest) => (name :: names, rest)
      | rest => some ([name], rest)

/-- A key of one or more parts. -/
def dottedKey : Reader (List String) := fun text =>
  (keyParts text.length text).filter fun (names, _) => names.length < depthLimit

/-! ### Numbers and other words -/

/-- The digits of a row in a base, with single underscores between digits. -/
def digitRow (base : Nat) (afterDigit : Bool) : List Char → Option (List Nat)
  | [] => if afterDigit then some [] else none
  | '_' :: rest => if afterDigit then digitRow base false rest else none
  | character :: rest =>
    (hexValue? character).bind fun digit =>
      if digit < base then (digitRow base true rest).map (digit :: ·) else none

/-- The value of a row of digits in a base. -/
def rowValue? (base : Nat) (digits : List Char) : Option Nat :=
  (digitRow base false digits).map fun row =>
    row.foldl (fun value digit => value * base + digit) 0

/-- An integer that fits in 64 bits with a sign. -/
def integerOf? (value : Int) : Option Value :=
  if -0x8000000000000000 ≤ value && value < 0x8000000000000000 then some (.integer value)
  else none

/-- Whether a row of digits has a zero before other digits. -/
def isZeroPadded : List Char → Bool
  | '0' :: _ :: _ => true
  | _ => false

/-- An unsigned decimal number. -/
def decimal? (digits : List Char) : Option Nat :=
  if isZeroPadded digits then none else rowValue? 10 digits

/-- Whether a word is a number with a fraction or an exponent, after its sign. -/
def isFraction (word : List Char) : Bool :=
  let whole := word.takeWhile fun character => character.isDigit || character == '_'
  let tail := word.dropWhile fun character => character.isDigit || character == '_'
  let isExponent (tail : List Char) : Bool :=
    match tail with
    | mark :: '+' :: digits | mark :: '-' :: digits | mark :: digits =>
      (mark == 'e' || mark == 'E') && (rowValue? 10 digits).isSome
    | [] => false
  (decimal? whole).isSome &&
    match tail with
    | '.' :: rest =>
      let digits := rest.takeWhile fun character => character.isDigit || character == '_'
      let after := rest.dropWhile fun character => character.isDigit || character == '_'
      (rowValue? 10 digits).isSome && (after.isEmpty || isExponent after)
    | _ => isExponent tail

/-- The value of a word without quotes. -/
def wordValue? (word : List Char) : Option Value :=
  match word with
  | '0' :: 'x' :: digits => (rowValue? 16 digits).bind fun value => integerOf? value
  | '0' :: 'o' :: digits => (rowValue? 8 digits).bind fun value => integerOf? value
  | '0' :: 'b' :: digits => (rowValue? 2 digits).bind fun value => integerOf? value
  | _ =>
    let isNegative := word.head? == some '-'
    let unsigned := if isNegative || word.head? == some '+' then word.drop 1 else word
    match String.ofList word with
    | "true" => some (.boolean true)
    | "false" => some (.boolean false)
    | _ =>
      match decimal? unsigned with
      | some value => integerOf? (if isNegative then -value else value)
      | none =>
        if isFraction unsigned || ["inf", "nan"].contains (String.ofList unsigned) then
          some .fraction
        else none

/-- Whether a character may stand in a word without quotes. -/
def isWordCharacter (character : Char) : Bool :=
  isBareKeyCharacter character || character == '+' || character == '.'

/-- A word without quotes. -/
def word (text : List Char) : Option (Value × List Char) :=
  (wordValue? (text.takeWhile isWordCharacter)).map fun value =>
    (value, text.dropWhile isWordCharacter)

end PatternGraph.Toml
