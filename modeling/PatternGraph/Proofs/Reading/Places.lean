/-
This file lists the places of a syntax tree in reading order: every node before what is below it,
and the elements of a character class, which are no nodes, right behind the class. An outline has
one node for each place of the list, with its type and its text, and a tour comes to the same places
in the same order. Both are recursions of their own, over nodes and over the elements of classes,
and each is compared with the list.

On one tree the two therefore agree. Where they differ in a pattern, it is because they walk
different trees: visitors leave out conditions that stand for no part of the input.
-/

import PatternGraph.Outline.OfPattern
import PatternGraph.Tour

namespace PatternGraph

/-! ### Places -/

namespace ClassElement

mutual

/-- The element and all elements below it, each before those below it. -/
def preorder : ClassElement → List ClassElement
  | .item site content => [.item site content]
  | .union site elements => .union site elements :: preorderAll elements
  | .intersection site elements operators =>
    .intersection site elements operators :: preorderAll elements
  | .nested site opening contents => .nested site opening contents :: preorder contents

/-- The elements of a row and all elements below them. -/
def preorderAll : List ClassElement → List ClassElement
  | [] => []
  | element :: rest => preorder element ++ preorderAll rest

end

/-- The type of an element and its text in the pattern. -/
def title (source : Source) (element : ClassElement) : String × String :=
  (element.outlineName, element.text source)

end ClassElement

/-- The elements of a character class. -/
def Node.elements : Node → List ClassElement
  | .leaf (.characterClass bracketed) => bracketed.contents.preorder
  | _ => []

/-- Something in a pattern that is read by itself. An element belongs to the node of its class. -/
inductive Place
  | node (id : StateId) (content : TreeNode)
  | element (owner : StateId) (element : ClassElement)

namespace Place

/-- The node that is read, or to whose class the element belongs. -/
def owner : Place → StateId
  | .node id _ => id
  | .element owner _ => owner

/-- The node that is read, if it is one. -/
def node? : Place → Option StateId
  | .node id _ => some id
  | .element .. => none

/-- The type of what is read and its text in the pattern. -/
def title (source : Source) : Place → String × String
  | .node _ content => (content.node.typeName, source.textAt content.range)
  | .element _ part => part.title source

end Place

/-- The places of a node without those below it. -/
def TreeNode.places (id : StateId) (content : TreeNode) : List Place :=
  .node id content :: content.node.elements.map (.element id)

namespace SyntaxTree

mutual

/-- The places of a tree in reading order. -/
def places : SyntaxTree → List Place
  | .node id content children => content.places id ++ placesAll children

/-- The places of a row of trees. -/
def placesAll : List SyntaxTree → List Place
  | [] => []
  | tree :: rest => places tree ++ placesAll rest

end

mutual

/-- The nodes among the places of a tree are its nodes in preorder. -/
theorem filterMap_node?_places : (tree : SyntaxTree) →
    tree.places.filterMap Place.node? = tree.preorder
  | .node id content children => by
    have inner : (content.node.elements.map (Place.element id)).filterMap Place.node? = [] :=
      List.filterMap_eq_nil_iff.mpr fun place member => by
        obtain ⟨part, -, rfl⟩ := List.mem_map.mp member
        rfl
    rw [places, TreeNode.places, List.cons_append,
      List.filterMap_cons_some (show Place.node? (.node id content) = some id from rfl),
      List.filterMap_append, inner, filterMap_node?_placesAll children, preorder, List.nil_append]

theorem filterMap_node?_placesAll : (trees : List SyntaxTree) →
    (placesAll trees).filterMap Place.node? = preorderAll trees
  | [] => rfl
  | tree :: rest => by
    rw [placesAll, List.filterMap_append, filterMap_node?_places tree,
      filterMap_node?_placesAll rest, preorderAll]

end

theorem placesAll_eq_flatMap (trees : List SyntaxTree) :
    placesAll trees = trees.flatMap places := by
  induction trees with
  | nil => rfl
  | cons tree rest inductionHypothesis =>
    rw [placesAll, inductionHypothesis, List.flatMap_cons]

theorem preorderAll_eq_flatMap (trees : List SyntaxTree) :
    preorderAll trees = trees.flatMap preorder := by
  induction trees with
  | nil => rfl
  | cons tree rest inductionHypothesis =>
    rw [preorderAll, inductionHypothesis, List.flatMap_cons]

end SyntaxTree

theorem TreeNode.owner_of_mem_places {id : StateId} {content : TreeNode} {place : Place}
    (member : place ∈ content.places id) : place.owner = id := by
  rcases List.mem_cons.mp member with rfl | inner
  · rfl
  · obtain ⟨part, -, rfl⟩ := List.mem_map.mp inner
    rfl

/-! ### Outlines -/

namespace Outline

mutual

/-- The types and labels of an outline, each node before its children. -/
def titles : Outline → List (String × String)
  | ⟨typeName, label, _, children⟩ => (typeName, label) :: titlesAll children

/-- The types and labels of a row of outlines. -/
def titlesAll : List Outline → List (String × String)
  | [] => []
  | outline :: rest => titles outline ++ titlesAll rest

end

theorem titlesAll_append (outlines others : List Outline) :
    titlesAll (outlines ++ others) = titlesAll outlines ++ titlesAll others := by
  induction outlines with
  | nil => rfl
  | cons outline rest inductionHypothesis =>
    rw [List.cons_append, titlesAll, inductionHypothesis, titlesAll, List.append_assoc]

end Outline

section

variable (source : Source)

mutual

theorem ClassElement.titles_outline : (element : ClassElement) →
    (element.outline source).titles = element.preorder.map (ClassElement.title source)
  | .item site content => rfl
  | .union site elements => by
    rw [ClassElement.outline, Outline.titles, titlesAll_outlineElements elements]
    rfl
  | .intersection site elements operators => by
    rw [ClassElement.outline, Outline.titles, titlesAll_outlineElements elements]
    rfl
  | .nested site opening contents => by
    rw [ClassElement.outline, Outline.titles, Outline.titlesAll, Outline.titlesAll,
      List.append_nil, ClassElement.titles_outline contents]
    rfl

theorem titlesAll_outlineElements : (elements : List ClassElement) →
    Outline.titlesAll (outlineElements source elements) =
      (ClassElement.preorderAll elements).map (ClassElement.title source)
  | [] => rfl
  | element :: rest => by
    rw [outlineElements, Outline.titlesAll, ClassElement.titles_outline element,
      titlesAll_outlineElements rest, ClassElement.preorderAll, List.map_append]

end

theorem Node.titlesAll_innerOutlines (node : Node) :
    Outline.titlesAll (node.innerOutlines source) =
      node.elements.map (ClassElement.title source) := by
  cases node with
  | leaf content =>
    cases content with
    | characterClass bracketed =>
      rw [innerOutlines, Outline.titlesAll, Outline.titlesAll, List.append_nil,
        ClassElement.titles_outline]
      rfl
    | _ => rfl
  | _ => rfl

namespace SyntaxTree

mutual

/-- An outline has one node for each place, in the order of the places. -/
theorem titles_outline : (tree : SyntaxTree) →
    (tree.outline source).titles = tree.places.map (Place.title source)
  | .node id content children => by
    rw [outline, Outline.titles, Outline.titlesAll_append, Node.titlesAll_innerOutlines,
      titlesAll_outlineTrees children, places, List.map_append, TreeNode.places, List.map_cons,
      List.map_map]
    rfl

theorem titlesAll_outlineTrees : (trees : List SyntaxTree) →
    Outline.titlesAll (outlineTrees source trees) = (placesAll trees).map (Place.title source)
  | [] => rfl
  | tree :: rest => by
    rw [outlineTrees, Outline.titlesAll, titles_outline tree, titlesAll_outlineTrees rest,
      placesAll, List.map_append]

end

end SyntaxTree

end

/-! ### Tours -/

/-- What a visitor comes to: a node or an element of a class. -/
inductive Arrival
  | node (id : StateId)
  | element (kind : ClassElementKind) (text : String)
  deriving DecidableEq

/-- The arrival that an event of a tour tells of, if it tells of one. -/
def TourEvent.arrival? : TourEvent → Option Arrival
  | .enter id => some (.node id)
  | .inClass kind text => some (.element kind text)
  | _ => none

/-- The arrivals of a tour in order. -/
def arrivals (events : List TourEvent) : List Arrival := events.filterMap TourEvent.arrival?

theorem arrivals_append (events others : List TourEvent) :
    arrivals (events ++ others) = arrivals events ++ arrivals others := List.filterMap_append

section

variable (source : Source)

/-- The arrival at an element of a class. -/
def ClassElement.arrival (element : ClassElement) : Arrival :=
  .element element.kind (element.text source)

/-- The arrival at a place. -/
def Place.arrival : Place → Arrival
  | .node id _ => .node id
  | .element _ part => part.arrival source

mutual

theorem ClassElement.arrivals_events : (element : ClassElement) →
    arrivals (element.events source) = element.preorder.map (ClassElement.arrival source)
  | .item site content => by
    cases content <;> rfl
  | .union site elements => by
    rw [ClassElement.events, ClassElement.preorder, List.map_cons,
      ← arrivals_elementEvents elements]
    rfl
  | .intersection site elements operators => by
    rw [ClassElement.events, ClassElement.preorder, List.map_cons,
      ← arrivals_elementEvents elements]
    rfl
  | .nested site opening contents => by
    rw [ClassElement.events, ClassElement.preorder, List.map_cons,
      ← ClassElement.arrivals_events contents]
    rfl

theorem arrivals_elementEvents : (elements : List ClassElement) →
    arrivals (elementEvents source elements) =
      (ClassElement.preorderAll elements).map (ClassElement.arrival source)
  | [] => rfl
  | element :: rest => by
    rw [elementEvents, arrivals_append, ClassElement.arrivals_events element,
      arrivals_elementEvents rest, ClassElement.preorderAll, List.map_append]

end

theorem Node.arrivals_events (id : StateId) (node : Node) :
    arrivals (node.events source id) = node.elements.map (ClassElement.arrival source) := by
  cases node with
  | leaf content =>
    cases content with
    | characterClass bracketed => exact bracketed.contents.arrivals_events source
    | _ => rfl
  | _ => rfl

namespace SyntaxTree

mutual

/-- A tour comes to each place once, in the order of the places. -/
theorem arrivals_events : (tree : SyntaxTree) →
    arrivals (tree.events source) = tree.places.map (Place.arrival source)
  | .node id content children => by
    have own : arrivals (.enter id :: content.node.events source id) =
        (content.places id).map (Place.arrival source) := by
      rw [TreeNode.places, List.map_cons, List.map_map]
      exact congrArg (Arrival.node id :: ·) (content.node.arrivals_events source id)
    have left (rest : List TourEvent) : arrivals (rest ++ [.leave id]) = arrivals rest := by
      rw [arrivals_append]
      exact List.append_nil _
    rw [events, ← List.cons_append, ← List.cons_append, left, arrivals_append, own,
      arrivals_treeEvents children, places, List.map_append]

theorem arrivals_treeEvents : (trees : List SyntaxTree) →
    arrivals (treeEvents source trees) = (placesAll trees).map (Place.arrival source)
  | [] => rfl
  | tree :: rest => by
    rw [treeEvents, arrivals_append, arrivals_events tree, arrivals_treeEvents rest, placesAll,
      List.map_append]

end

end SyntaxTree

end

end PatternGraph
