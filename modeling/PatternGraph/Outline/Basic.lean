/-
This file defines outlines: a normalized view of a syntax tree with the type of each node, the text
it was written as, a few attributes of its kind and its children in reading order. Links and glue
states are no part of an outline. Attributes are kept ascending by key with every key once, so two
outlines with the same attributes are equal however they came about.
-/

namespace PatternGraph

/-- A node of an outline and what is below it. -/
structure Outline where
  typeName : String
  label : String
  attributes : List (String × String)
  children : List Outline

/-- Puts an attribute in its place; a later value replaces an earlier one of the same key. -/
def insertAttribute (key value : String) : List (String × String) → List (String × String)
  | [] => [(key, value)]
  | (other, kept) :: rest =>
    if key = other then (key, value) :: rest
    else if key < other then (key, value) :: (other, kept) :: rest
    else (other, kept) :: insertAttribute key value rest

/-- The attributes given in any order, of several with one key the last. -/
def attributesOf (pairs : List (String × String)) : List (String × String) :=
  pairs.foldl (fun attributes pair => insertAttribute pair.1 pair.2 attributes) []

/-- The attributes in brackets after a blank, nothing if there are none. -/
def renderAttributes (attributes : List (String × String)) : String :=
  if attributes.isEmpty then ""
  else " [" ++ ", ".intercalate (attributes.map fun (key, value) => key ++ "=" ++ value) ++ "]"

/-- The indentation of a level. -/
def indentation (depth : Nat) : String := String.ofList (List.replicate (2 * depth) ' ')

namespace Outline

/-- The line of a node without what is below it. -/
def renderLine (depth : Nat) (outline : Outline) : String :=
  indentation depth ++ outline.typeName ++ " `" ++ outline.label ++ "`" ++
    renderAttributes outline.attributes ++ "\n"

mutual

/-- The lines of an outline whose root stands at a depth. -/
def renderAt (depth : Nat) : Outline → String
  | ⟨typeName, label, attributes, children⟩ =>
    renderLine depth ⟨typeName, label, attributes, children⟩ ++ renderAllAt (depth + 1) children

/-- The lines of a row of outlines at the same depth. -/
def renderAllAt (depth : Nat) : List Outline → String
  | [] => ""
  | outline :: rest => renderAt depth outline ++ renderAllAt depth rest

end

/-- One line for each node, children indented by two blanks. -/
def render (outline : Outline) : String := renderAt 0 outline

end Outline

end PatternGraph
