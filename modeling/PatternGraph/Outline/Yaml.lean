/-
This file writes outlines as YAML text in block style. The entries of a map stand one to a line at
the indentation of the map, a map inside of another two blanks further in. The elements of a list
stand behind hyphens at the indentation of the map that holds the list, so the entries of an element
are two blanks further in as well. Empty maps and lists are written on one line.

A key that is short and has no line break is followed by its value on the same line. Any other key
is announced by a question mark, and its value follows on a line of its own.
-/

import PatternGraph.Outline.Scalar
import PatternGraph.Text.Slice

namespace PatternGraph.Yaml

/-- The indentation by a number of blanks. -/
def margin (indent : Nat) : String := String.ofList (List.replicate indent ' ')

/-- The text with a line break at its end, unless a literal block has brought one. -/
def closeLine (text : String) : String :=
  if (text.toList.getLast?.map isBreak).getD false then text else text ++ "\n"

/-- Whether a key can stand before its value on one line: it has at most 128 bytes and no line
break. -/
def isSimpleKey (key : String) : Bool :=
  Text.byteLength key.toList ≤ 128 && !key.toList.any isBreak

/-- An entry of a map at an indentation; the margin before it is already written. -/
def entry (indent : Nat) (key value : String) : String :=
  if isSimpleKey key then
    closeLine (scalar true (indent + 2) key ++ ": " ++ scalar false (indent + 2) value)
  else
    closeLine ("? " ++ scalar false (indent + 2) key) ++
      closeLine (margin indent ++ ": " ++ scalar false (indent + 2) value)

/-- The attributes of a node as the value of their key. -/
def attributesBlock (indent : Nat) (attributes : List (String × String)) : String :=
  if attributes.isEmpty then " \x7b\x7d\n"
  else "\n" ++ String.join (attributes.map fun (key, value) =>
    margin (indent + 2) ++ entry (indent + 2) key value)

mutual

/-- The entries of an outline at an indentation; the margin of the first is already written. -/
def outlineAt (indent : Nat) : Outline → String
  | ⟨typeName, label, attributes, children⟩ =>
    entry indent "node_type" typeName ++ margin indent ++ entry indent "label" label ++
      margin indent ++ "attributes:" ++ attributesBlock indent attributes ++
      margin indent ++ "children:" ++
      (if children.isEmpty then " []\n" else "\n" ++ outlinesAt indent children)

/-- The elements of a list of outlines at an indentation. -/
def outlinesAt (indent : Nat) : List Outline → String
  | [] => ""
  | outline :: rest =>
    margin indent ++ "- " ++ outlineAt (indent + 2) outline ++ outlinesAt indent rest

end

end PatternGraph.Yaml

namespace PatternGraph

/-- The YAML text of an outline. -/
def Outline.toYaml (outline : Outline) : String := Yaml.outlineAt 0 outline

end PatternGraph
