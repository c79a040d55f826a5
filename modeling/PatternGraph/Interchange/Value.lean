/-
This file defines the values in which data comes from and goes to the outside: the values of JSON
and of settings files. A record keeps its fields in the order in which they were given; where a name
occurs twice the last field with it counts. Numbers with a fraction are told apart from integers but
are otherwise not looked at, since nothing here is measured in fractions.
-/

namespace PatternGraph

/-- A value of a data format. -/
inductive Value
  | null
  | boolean (value : Bool)
  | integer (value : Int)
  | fraction
  | text (value : String)
  | list (elements : List Value)
  | record (fields : List (String × Value))

namespace Value

/-- The last of the fields with a name. -/
def lastField? (name : String) (fields : List (String × Value)) : Option Value :=
  (fields.reverse.find? fun field => field.1 == name).map Prod.snd

/-- The values of the named fields of a record; a list with one element for each name serves too. -/
def fields? (names : List String) : Value → Option (List Value)
  | record fields => names.mapM fun name => lastField? name fields
  | list elements => if elements.length == names.length then some elements else none
  | _ => none

/-- The name of an alternative without contents: a text, or a record of one field without value. -/
def alternative? : Value → Option String
  | text name => some name
  | record [(name, null)] => some name
  | _ => none

/-- An integer between two bounds, both included. -/
def integerBetween? (least greatest : Int) : Value → Option Int
  | integer value => if least ≤ value && value ≤ greatest then some value else none
  | _ => none

def boolean? : Value → Option Bool
  | boolean value => some value
  | _ => none

def text? : Value → Option String
  | text value => some value
  | _ => none

/-- A text of exactly one character. -/
def character? : Value → Option Char
  | text value =>
    match value.toList with
    | [character] => some character
    | _ => none
  | _ => none

end Value

end PatternGraph
