/-
This file defines the paths that name a place within settings. A path begins with a name; further
names follow dots and stand for fields, and integers in brackets stand for elements of a list, the
negative ones counted from its end. Names consist of ASCII letters, digits, blanks, underscores and
hyphens. Settings do not tell capital letters from small ones, so names are compared in small
letters.

`assign` puts a value at a place. What is on the way is made to fit: anything that is not a record,
or not a list, gives way to an empty one. A record that is put where a record is adds to it field by
field; every other value replaces what was there.
-/

import PatternGraph.Interchange.Value
import PatternGraph.Text.SmallLetters

namespace PatternGraph

/-- One step of a path. -/
inductive KeyStep
  | field (name : String)
  | element (index : Int)
  deriving DecidableEq

/-- A place within settings. -/
abbrev KeyPath := List KeyStep

namespace KeyPath

/-- Whether a character may stand in a name. -/
def isNameCharacter (character : Char) : Bool :=
  character.isAlphanum || character == ' ' || character == '_' || character == '-'

def isBlank (character : Char) : Bool := character == ' ' || character == '\t'

/-- A name and the text after it. -/
def name? (text : List Char) : Option (String × List Char) :=
  let name := text.takeWhile isNameCharacter
  if name.isEmpty then none else some (String.ofList name, text.dropWhile isNameCharacter)

/-- An index, blanks around it, and the text after its closing bracket. -/
def index? (text : List Char) : Option (Int × List Char) :=
  let text := text.dropWhile isBlank
  let (isNegative, text) := match text with
    | '-' :: rest => (true, rest)
    | _ => (false, text)
  let digits := text.takeWhile Char.isDigit
  let value : Int := digits.foldl (fun value digit => value * 10 + (digit.toNat - '0'.toNat)) 0
  let value := if isNegative then -value else value
  match (text.dropWhile Char.isDigit).dropWhile isBlank with
  | ']' :: rest =>
    if digits.isEmpty || value < -0x8000000000000000 || 0x8000000000000000 ≤ value then none
    else some (value, rest)
  | _ => none

/-- The steps after the first name. The fuel is the length of the text, of which every step takes at
least one character. -/
def steps? (fuel : Nat) (text : List Char) : Option KeyPath :=
  match fuel, text with
  | _, [] => some []
  | fuel + 1, '.' :: rest =>
    (name? rest).bind fun (name, rest) => (steps? fuel rest).map (.field name :: ·)
  | fuel + 1, '[' :: rest =>
    (index? rest).bind fun (index, rest) => (steps? fuel rest).map (.element index :: ·)
  | _, _ => none

/-- The path that a key is written as. -/
def parse? (key : String) : Option KeyPath :=
  (name? key.toList).bind fun (name, rest) =>
    (steps? rest.length rest).map (.field name :: ·)

end KeyPath

namespace Value

/-- The fields of a record; every other value gives way to an empty record. -/
def recordFields : Value → List (String × Value)
  | record fields => fields
  | _ => []

/-- The elements of a list; every other value gives way to an empty list. -/
def listElements : Value → List Value
  | list elements => elements
  | _ => []

/-- Replaces a field or adds it at the end. -/
def putField (name : String) (value : Value) : List (String × Value) → List (String × Value)
  | [] => [(name, value)]
  | (other, kept) :: rest =>
    if other == name then (name, value) :: rest else (other, kept) :: putField name value rest

mutual

/-- Puts a value into a field. A record is put in field by field, so that what it does not mention
stays. -/
def assignField (target : Value) (name : String) (value : Value) : Value :=
  let key := Text.inSmallLetters name
  let fields := target.recordFields
  match value with
  | record incoming =>
    let kept := (fields.lookup key).getD (.record [])
    .record (putField key (assignFields kept incoming) fields)
  | _ => .record (putField key value fields)

/-- Puts several values into their fields, in order. -/
def assignFields (target : Value) (incoming : List (String × Value)) : Value :=
  match incoming with
  | [] => target
  | (name, value) :: rest => assignFields (assignField target name value) rest

end

/-- The position that an index names in a list. -/
def position (index : Int) (length : Nat) : Nat :=
  if 0 ≤ index then index.toNat else length - index.natAbs

/-- Replaces an element, after enough nulls at the end for the position to exist. -/
def putElement (position : Nat) (value : Value) (elements : List Value) : List Value :=
  (elements ++ List.replicate (position + 1 - elements.length) Value.null).set position value

/-- Puts a value at a place. -/
def assign (target : Value) (path : KeyPath) (value : Value) : Value :=
  match path with
  | [] => value
  | [.field name] => target.assignField name value
  | .field name :: rest =>
    let key := Text.inSmallLetters name
    let fields := target.recordFields
    .record (putField key (assign ((fields.lookup key).getD .null) rest value) fields)
  | .element index :: rest =>
    let elements := target.listElements
    let place := position index elements.length
    .list (putElement place (assign (elements.getD place .null) rest value) elements)

end Value

end PatternGraph
