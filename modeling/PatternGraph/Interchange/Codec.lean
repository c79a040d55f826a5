/-
This file gives the interchange form of the types that are passed around outside of the library: a
record for each structure, its fields under fixed names, and the name of the alternative for each
enumeration. Reading accepts what writing produces. Every field has to be there and to have its
type, integers within their range; further fields are ignored, and a structure may be given as the
list of its fields.
-/

import PatternGraph.Interchange.Value
import PatternGraph.Outline.Basic
import PatternGraph.Syntax.Node

namespace PatternGraph

/-- An offset, which is kept in 32 bits with a sign. -/
def Value.offset? : Value → Option Int := Value.integerBetween? (-0x80000000) 0x7FFFFFFF

namespace TextRange

def ofValue? (value : Value) : Option TextRange :=
  match value.fields? ["beginning", "ending"] with
  | some [beginning, ending] =>
    beginning.offset?.bind fun first => ending.offset?.map fun last => ⟨first, last⟩
  | _ => none

def toValue (range : TextRange) : Value :=
  .record [("beginning", .integer range.beginning), ("ending", .integer range.ending)]

end TextRange

namespace SourceCharacter

def ofValue? (value : Value) : Option SourceCharacter :=
  match value.fields? ["range", "character", "is_escape_sequence"] with
  | some [range, character, isEscape] => do
    let range ← TextRange.ofValue? range
    let character ← character.character?
    let isEscape ← isEscape.boolean?
    return ⟨range, character, isEscape⟩
  | _ => none

def toValue (character : SourceCharacter) : Value :=
  .record [("range", character.range.toValue), ("character", .text character.character.toString),
    ("is_escape_sequence", .boolean character.isEscape)]

end SourceCharacter

namespace Token

def ofValue? (value : Value) : Option Token :=
  match value.fields? ["range"] with
  | some [range] => (TextRange.ofValue? range).map Token.mk
  | _ => none

def toValue (token : Token) : Value := .record [("range", token.range.toValue)]

end Token

namespace StateId

def ofValue? (value : Value) : Option StateId :=
  (value.integerBetween? 0 (bound - 1)).map fun index => ⟨index.toNat⟩

def toValue (id : StateId) : Value := .integer id.index

end StateId

/-- Reads an alternative by its name. -/
def Value.named? {α : Type} (ofName? : String → Option α) (value : Value) : Option α :=
  value.alternative?.bind ofName?

namespace Outline

/-- A field whose value is a text. -/
def attribute? (field : String × Value) : Option (String × String) :=
  field.2.text?.map fun text => (field.1, text)

/-- The attributes that a record of texts stands for. -/
def attributesOfValue? : Value → Option (List (String × String))
  | .record fields => (fields.mapM attribute?).map attributesOf
  | _ => none

mutual

def ofValue? : Value → Option Outline
  | .record fields =>
    match Value.lastField? "node_type" fields, Value.lastField? "label" fields,
      Value.lastField? "attributes" fields, childrenOfFields? fields with
    | some typeName, some label, some attributes, some children => do
      let typeName ← typeName.text?
      let label ← label.text?
      let attributes ← attributesOfValue? attributes
      return ⟨typeName, label, attributes, children⟩
    | _, _, _, _ => none
  | .list [typeName, label, attributes, .list children] => do
    let typeName ← typeName.text?
    let label ← label.text?
    let attributes ← attributesOfValue? attributes
    let children ← outlinesOfValues? children
    return ⟨typeName, label, attributes, children⟩
  | _ => none

/-- The outlines in the last field that holds the children. -/
def childrenOfFields? : List (String × Value) → Option (List Outline)
  | [] => none
  | (name, value) :: rest =>
    match childrenOfFields? rest with
    | some children => some children
    | none =>
      if name == "children" && (Value.lastField? "children" rest).isNone then
        match value with
        | .list elements => outlinesOfValues? elements
        | _ => none
      else none

/-- A row of outlines. -/
def outlinesOfValues? : List Value → Option (List Outline)
  | [] => some []
  | value :: rest =>
    (ofValue? value).bind fun outline => (outlinesOfValues? rest).map (outline :: ·)

end

mutual

def toValue : Outline → Value
  | ⟨typeName, label, attributes, children⟩ =>
    .record [("node_type", .text typeName), ("label", .text label),
      ("attributes", .record (attributes.map fun (key, value) => (key, .text value))),
      ("children", .list (toValues children))]

/-- A row of outlines. -/
def toValues : List Outline → List Value
  | [] => []
  | outline :: rest => toValue outline :: toValues rest

end

end Outline

/-- The types with an interchange form, by the names under which they are asked for. -/
inductive InterchangeType
  | textRange
  | sourceCharacter
  | token
  | dialect
  | feature
  | boundary
  | kind
  | stateId
  | outline
  deriving DecidableEq

/-- Reads a value as a type and writes it again, `none` if it is no value of the type. -/
def InterchangeType.reread (type : InterchangeType) (value : Value) : Option Value :=
  match type with
  | textRange => (TextRange.ofValue? value).map TextRange.toValue
  | sourceCharacter => (SourceCharacter.ofValue? value).map SourceCharacter.toValue
  | token => (Token.ofValue? value).map Token.toValue
  | dialect => (value.named? Dialect.ofName?).map fun dialect => .text dialect.name
  | feature => (value.named? Feature.ofName?).map fun feature => .text feature.name
  | boundary => (value.named? Boundary.ofName?).map fun boundary => .text boundary.name
  | kind => (value.named? Kind.ofName?).map fun kind => .text kind.name
  | stateId => (StateId.ofValue? value).map StateId.toValue
  | outline => (Outline.ofValue? value).map Outline.toValue

end PatternGraph
