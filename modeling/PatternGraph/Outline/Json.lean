/-
This file writes outlines as JSON text, indented by two blanks a level, with one field or element on
each line. Empty maps and lists are written on one line. Of the characters in strings only the
quotation mark, the backslash and the control characters below the blank are escaped; five of these
have short forms and the others are written as four hexadecimal digits.
-/

import PatternGraph.Outline.Basic

namespace PatternGraph.Json

/-- A digit of a hexadecimal number, with small letters. -/
def hexDigit (value : Nat) : Char := Nat.digitChar (value % 16)

/-- A character within a JSON string. -/
def escapeCharacter (character : Char) : List Char :=
  match character with
  | '"' => ['\\', '"']
  | '\\' => ['\\', '\\']
  | '\x08' => ['\\', 'b']
  | '\x0c' => ['\\', 'f']
  | '\n' => ['\\', 'n']
  | '\r' => ['\\', 'r']
  | '\t' => ['\\', 't']
  | _ =>
    if character.toNat < 0x20 then
      ['\\', 'u', '0', '0', hexDigit (character.toNat / 16), hexDigit character.toNat]
    else [character]

/-- A JSON string with its quotation marks. -/
def quote (text : String) : String :=
  "\"" ++ String.ofList (text.toList.flatMap escapeCharacter) ++ "\""

/-- A field of an object without its indentation. -/
def field (key value : String) : String := quote key ++ ": " ++ value

/-- Rows between two brackets, each on a line of its own one level further in. -/
def block (opening closing : String) (depth : Nat) (rows : List String) : String :=
  if rows.isEmpty then opening ++ closing
  else
    let separator := ",\n" ++ indentation (depth + 1)
    opening ++ "\n" ++ indentation (depth + 1) ++ separator.intercalate rows ++ "\n" ++
      indentation depth ++ closing

mutual

/-- An outline as an object whose closing brace stands at a depth. -/
def outlineAt (depth : Nat) : Outline → String
  | ⟨typeName, label, attributes, children⟩ =>
    block "\x7b" "\x7d" depth
      [field "node_type" (quote typeName), field "label" (quote label),
        field "attributes" (block "\x7b" "\x7d" (depth + 1)
          (attributes.map fun (key, value) => field key (quote value))),
        field "children" (block "[" "]" (depth + 1) (outlinesAt (depth + 2) children))]

/-- A row of outlines as objects. -/
def outlinesAt (depth : Nat) : List Outline → List String
  | [] => []
  | outline :: rest => outlineAt depth outline :: outlinesAt depth rest

end

end PatternGraph.Json

namespace PatternGraph

/-- The JSON text of an outline. -/
def Outline.toJson (outline : Outline) : String := Json.outlineAt 0 outline

end PatternGraph
