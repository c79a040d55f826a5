/-
This file defines quantifiers. There are two forms: the signs `*`, `+` and `?`, and bounds in curly
braces, whose tokens are read as 32-bit numerals. Either form may carry a modifier, which never
changes the bounds: it only decides in which order an automaton tries to repeat and to stop.

In the braces a missing minimum counts as zero. Without a comma the maximum is the minimum; with a
comma and no token after it there is no maximum. A token after a missing comma is still read, and
refused when it is no numeral, although its value is not used.
-/

import PatternGraph.Source
import PatternGraph.SyntaxFault
import PatternGraph.Text.Numeral

namespace PatternGraph

/-- How eagerly a quantifier repeats. -/
inductive Modifier
  | greedy
  | reluctant
  | possessive
  deriving DecidableEq

namespace Modifier

def all : List Modifier := [greedy, reluctant, possessive]

def name : Modifier → String
  | greedy => "Greedy"
  | reluctant => "Reluctant"
  | possessive => "Possessive"

def ofName? (name : String) : Option Modifier := all.find? fun modifier => modifier.name == name

end Modifier

/-- A quantifier written as a single sign. -/
inductive QuantifierSign
  | star
  | plus
  | questionMark
  deriving DecidableEq

namespace QuantifierSign

def all : List QuantifierSign := [star, plus, questionMark]

def name : QuantifierSign → String
  | star => "Star"
  | plus => "Plus"
  | questionMark => "QuestionMark"

def ofName? (name : String) : Option QuantifierSign := all.find? fun sign => sign.name == name

def character : QuantifierSign → Char
  | star => '*'
  | plus => '+'
  | questionMark => '?'

def ofCharacter? (character : Char) : Option QuantifierSign :=
  all.find? fun sign => sign.character == character

end QuantifierSign

/-- The tokens of a quantifier in curly braces and the values read from them. -/
structure CurlyBounds where
  minimumToken : Option Token
  commaToken : Option Token
  maximumToken : Option Token
  minimum : Nat
  maximum : Option Nat
  deriving DecidableEq

/-- The two ways of writing a quantifier. -/
inductive QuantifierForm
  | sign (sign : QuantifierSign)
  | curly (bounds : CurlyBounds)
  deriving DecidableEq

structure Quantifier where
  range : TextRange
  modifier : Modifier
  form : QuantifierForm
  deriving DecidableEq

namespace Quantifier

/-- The value of a bound token. -/
def bound? (source : Source) (token : Token) : Except SyntaxFault Nat :=
  let text := source.textAt token.range
  match Text.numeral32? text with
  | some value => .ok value
  | none => .error (.invalidBound text token.range)

/-- A quantifier in curly braces, its bounds read from the text of their tokens, the minimum before
the maximum. -/
def ofCurly? (source : Source) (range : TextRange) (modifier : Modifier)
    (minimumToken commaToken maximumToken : Option Token) : Except SyntaxFault Quantifier := do
  let minimum ← match minimumToken with
    | some token => bound? source token
    | none => .ok 0
  let maximum ← match maximumToken with
    | some token => (bound? source token).map some
    | none => .ok none
  return ⟨range, modifier, .curly ⟨minimumToken, commaToken, maximumToken, minimum, maximum⟩⟩

/-- The least number of repetitions. -/
def minimum (quantifier : Quantifier) : Nat :=
  match quantifier.form with
  | .sign .plus => 1
  | .sign _ => 0
  | .curly bounds => bounds.minimum

/-- The greatest number of repetitions, `none` when there is no limit. -/
def maximum (quantifier : Quantifier) : Option Nat :=
  match quantifier.form with
  | .sign .questionMark => some 1
  | .sign _ => none
  | .curly bounds => if bounds.commaToken.isNone then some bounds.minimum else bounds.maximum

def isOpenEnded (quantifier : Quantifier) : Bool := quantifier.maximum.isNone

/-- Whether the quantifier is a single bound in curly braces. -/
def isFixed (quantifier : Quantifier) : Bool :=
  match quantifier.form with
  | .sign _ => false
  | .curly bounds => bounds.commaToken.isNone

def isReluctant (quantifier : Quantifier) : Bool := quantifier.modifier == .reluctant

def isPossessive (quantifier : Quantifier) : Bool := quantifier.modifier == .possessive

end Quantifier

end PatternGraph
