/-
This file proves that the tour and the outline of a part of a pattern show the same places in the
same order, except for those that are out of sight: what lies in the condition of a conditional that
is no lookaround. An outline has them between the conditional and its yes pattern, and a tour leaves
them out.

Both start from a handle and read a tree off the automaton first, each by its own account of where
to go from a node. That of outlines comes to all children, so the reading ends because the nodes
below the root of a pattern form a tree. That of visitors asks each conditional for the kind of its
condition; that it ends as well, with the full tree without what is out of sight, is shown along the
full tree. Whether a place is out of sight is said of handles, and that this is what was left out
follows from the fact that no node lies below two children of one parent.
-/

import Mathlib.Data.List.Flatten
import PatternGraph.Proofs.Finish
import PatternGraph.Proofs.Reading.Places

namespace PatternGraph

open Relation

namespace Automaton

/-! ### Parts of a tree -/

theorem child_of_mem {automaton : Automaton} {id : StateId} {content : TreeNode}
    {children : List SyntaxTree} {child : SyntaxTree} (found : automaton.tree? id = some content)
    (named : children.map SyntaxTree.id = content.node.children) (member : child ∈ children) :
    automaton.Child id child.id := ⟨content, found, named ▸ List.mem_map_of_mem member⟩

section

variable {automaton : Automaton} {root : StateId} (isTree : automaton.IsTree root)

include isTree

/-- What is below a node of a tree is a tree. -/
theorem IsTree.of_below {id : StateId} (below : automaton.Below root id) : automaton.IsTree id :=
  isTree_of_unique_parent (fun further => isTree.exists_tree (below.trans further))
    (fun further named => isTree.acyclic (below.trans further) (.head' named further))
    (fun further found => isTree.nodup_children (below.trans further) found)
    fun further furtherToo => isTree.parent_unique (below.trans further) (below.trans furtherToo)

/-- The parent of a node is not below it. -/
theorem IsTree.not_below_of_child {parent child : StateId} (below : automaton.Below root parent)
    (named : automaton.Child parent child) : ¬ automaton.Below child parent :=
  fun loop => isTree.acyclic below (.head' named loop)

/-- No node is below two children of one parent. -/
theorem IsTree.child_unique {parent first second id : StateId}
    (below : automaton.Below root parent) (named : automaton.Child parent first)
    (namedToo : automaton.Child parent second) (belowFirst : automaton.Below first id)
    (belowSecond : automaton.Below second id) : first = second := by
  -- The two ways down end at the same parent, so both can be cut short until one of them is empty;
  -- the other would then come back to a child from below it.
  induction belowFirst with
  | refl =>
    rcases ReflTransGen.cases_tail belowSecond with same | ⟨other, further, namedLast⟩
    · exact same
    · have same : other = parent := isTree.parent_unique
        ((below.tail namedToo).trans further) below namedLast named
      exact absurd (same ▸ further) (isTree.not_below_of_child below namedToo)
  | @tail between id further namedLast inductionHypothesis =>
    have belowBetween := (below.tail named).trans further
    rcases ReflTransGen.cases_tail belowSecond with same | ⟨other, furtherToo, namedToLast⟩
    · have sameParent : between = parent :=
        isTree.parent_unique belowBetween below namedLast (same ▸ namedToo)
      exact absurd (sameParent ▸ further) (isTree.not_below_of_child below named)
    · have sameParent : other = between := isTree.parent_unique
        ((below.tail namedToo).trans furtherToo) belowBetween namedToLast namedLast
      exact inductionHypothesis (sameParent ▸ furtherToo)

end

end Automaton

/-! ### What visitors leave out -/

namespace Node

/-- What a conditional asks about. -/
def condition? : Node → Option StateId
  | .conditional condition .. => some condition
  | _ => none

theorem mem_children_of_condition? {node : Node} {condition : StateId}
    (asks : node.condition? = some condition) : condition ∈ node.children := by
  cases node with
  | conditional asked yes bar no => exact Option.some.inj asks ▸ List.mem_cons_self
  | _ => cases asks

/-- Whether a visitor of a node passes over a child: the condition of a conditional, unless it is a
lookaround. -/
def passesOver (node : Node) : SyntaxTree → Bool
  | .node id content _ => node.condition? == some id && content.node.kind != .lookAround

end Node

namespace SyntaxTree

mutual

/-- The tree without what visitors pass over. -/
def visited : SyntaxTree → SyntaxTree
  | .node id content children => .node id content (visitedBelow content.node children)

/-- The trees below a node without those that visitors pass over. -/
def visitedBelow (parent : Node) : List SyntaxTree → List SyntaxTree
  | [] => []
  | child :: rest =>
    if parent.passesOver child then visitedBelow parent rest
    else visited child :: visitedBelow parent rest

end

theorem visitedBelow_eq (parent : Node) (children : List SyntaxTree) :
    visitedBelow parent children =
      (children.filter fun child => !parent.passesOver child).map visited := by
  induction children with
  | nil => rfl
  | cons child rest inductionHypothesis =>
    rw [visitedBelow, inductionHypothesis]
    cases passed : parent.passesOver child <;> simp [passed]

/-- What visitors come to below a node is a selection of places if it is one for each child. -/
theorem placesAll_visitedBelow {parent : Node} {selects : Place → Bool}
    {children : List SyntaxTree} (each : ∀ child ∈ children,
      (if parent.passesOver child then [] else child.visited.places) =
        child.places.filter selects) :
    placesAll (visitedBelow parent children) = (placesAll children).filter selects := by
  induction children with
  | nil => rfl
  | cons child rest inductionHypothesis =>
    have others := inductionHypothesis fun other member => each other (.tail _ member)
    rw [visitedBelow, placesAll, List.filter_append, ← each child (.head _), ← others]
    cases parent.passesOver child <;> rfl

end SyntaxTree

namespace Automaton

variable {automaton : Automaton}

/-- A row of trees is unfolded if each of them is. -/
theorem subtrees_eq {childrenOf : TreeNode → Except Fault (List StateId)}
    {ancestors : List StateId} {unfold : SyntaxTree → SyntaxTree} {trees : List SyntaxTree}
    (each : ∀ tree ∈ trees,
      automaton.subtree childrenOf ancestors tree.id = .ok (unfold tree)) :
    automaton.subtrees childrenOf ancestors (trees.map SyntaxTree.id) =
      .ok (trees.map unfold) := by
  induction trees with
  | nil => rw [List.map_nil, subtrees, List.map_nil]
  | cons tree rest inductionHypothesis =>
    have others := inductionHypothesis fun other member => each other (.tail _ member)
    rw [List.map_cons, subtrees, each tree (.head _), others]
    rfl

theorem isOfKind_of_tree? {kind : Kind} {id : StateId} {content : TreeNode}
    (isTree : automaton.tree? id = some content) :
    automaton.isOfKind kind id = .ok (content.node.kind == kind) := by
  rw [isOfKind, state_eq_ok_iff.mpr (tree?_eq_some_iff.mp isTree)]
  rfl

/-- A child is passed over if the parent asks about it and it is no lookaround. -/
theorem Describes.passesOver_iff {child : SyntaxTree} (described : automaton.Describes child)
    {parent : Node} : parent.passesOver child = true ↔ parent.condition? = some child.id ∧
      automaton.isOfKind .lookAround child.id = .ok false := by
  cases described with
  | @node id content children isTree named described =>
    rw [SyntaxTree.id, isOfKind_of_tree? isTree, Except.ok.injEq, Node.passesOver,
      Bool.and_eq_true, beq_iff_eq, bne, Bool.not_eq_true']

/-- Visitors go to all children of a node that asks about nothing. -/
theorem visitedChildren_of_condition? {content : TreeNode}
    (unconditional : content.node.condition? = none) :
    automaton.visitedChildren content = .ok content.node.children := by
  rw [visitedChildren]
  cases same : content.node with
  | nonCapturingGroup body enabled disabled => cases body <;> rfl
  | conditional condition yes bar no => simp [same, Node.condition?] at unconditional
  | _ => rfl

/-- Visitors ask a conditional for the kind of its condition and every other node for nothing. -/
theorem visitedChildren_eq {content : TreeNode} {children : List SyntaxTree}
    (named : children.map SyntaxTree.id = content.node.children)
    (described : ∀ child ∈ children, automaton.Describes child)
    (distinct : content.node.children.Nodup) :
    automaton.visitedChildren content =
      .ok ((children.filter fun child => !content.node.passesOver child).map SyntaxTree.id) := by
  cases same : content.node with
  | conditional condition yes bar no =>
    rw [same, Node.children] at named
    rw [same, Node.children, List.nodup_cons] at distinct
    obtain ⟨first, rest, rfl, rfl, others⟩ := List.map_eq_cons_iff.mp named
    have kept : (rest.filter fun child =>
        !(Node.conditional first.id yes bar no).passesOver child) = rest := by
      refine List.filter_eq_self.mpr fun child member => ?_
      rw [Bool.not_eq_true', Bool.eq_false_iff, Ne,
        (described child (.tail _ member)).passesOver_iff]
      rintro ⟨asks, -⟩
      exact distinct.1 (others ▸ Option.some.inj asks ▸ List.mem_map_of_mem member)
    cases described first (.head _) with
    | @node id asked below isTree =>
      have passed : (Node.conditional id yes bar no).passesOver (.node id asked below) =
          !(asked.node.kind == .lookAround) := by
        rw [Node.passesOver, Node.condition?, beq_self_eq_true, Bool.true_and, bne]
      rw [SyntaxTree.id] at kept
      rw [visitedChildren, same]
      change (automaton.tree id).map _ = _
      rw [tree_eq_ok_iff.mpr isTree, SyntaxTree.id, List.filter_cons, kept, passed, Bool.not_not,
        apply_ite (List.map SyntaxTree.id), List.map_cons, others, Except.map, SyntaxTree.id]
  | _ =>
    rw [visitedChildren_of_condition? (by rw [same]; rfl), List.filter_eq_self.mpr, named]
    exact fun child _ => by cases child; rfl

/-- The tree that visitors walk below a node of a tree is the full tree without what is passed
over. -/
theorem IsTree.subtree_visited {root : StateId} (isTree : automaton.IsTree root)
    {tree : SyntaxTree} (described : automaton.Describes tree) {ancestors : List StateId}
    (below : automaton.Below root tree.id)
    (descends : ∀ ancestor ∈ ancestors, TransGen automaton.Child ancestor tree.id) :
    automaton.subtree automaton.visitedChildren ancestors tree.id = .ok tree.visited := by
  induction described generalizing ancestors with
  | @node id content children found named described inductionHypothesis =>
    have fresh : ¬ ancestors.contains id = true := fun recurs =>
      isTree.acyclic below (descends id (by simpa using recurs))
    have each : ∀ child ∈ children.filter fun child => !content.node.passesOver child,
        automaton.subtree automaton.visitedChildren (id :: ancestors) child.id =
          .ok child.visited := fun child kept => by
      have member := (List.mem_filter.mp kept).1
      have edge := child_of_mem found named member
      refine inductionHypothesis child member (below.tail edge) fun ancestor above => ?_
      rcases List.mem_cons.mp above with same | further
      · exact same ▸ .single edge
      · exact (descends ancestor further).tail edge
    have distinct := isTree.nodup_children below found
    rw [SyntaxTree.visited, SyntaxTree.visitedBelow_eq, SyntaxTree.id, subtree]
    split
    · rename_i fault missing
      cases (tree_eq_ok_iff.mpr found).symm.trans missing
    · rename_i other same
      cases (tree_eq_ok_iff.mpr found).symm.trans same
      rw [dif_neg fresh]
      simp only [visitedChildren_eq named described distinct, subtrees_eq each]
      rfl

end Automaton

/-! ### What outlines show -/

/-- An outline shows all children. -/
theorem Node.outlinedChildren_eq (node : Node) : node.outlinedChildren = node.children := by
  cases node with
  | nonCapturingGroup body enabled disabled => cases body <;> rfl
  | conditional condition yes bar no => cases no <;> rfl
  | _ => rfl

theorem Automaton.outlinedTree_eq (automaton : Automaton) (id : StateId) :
    automaton.outlinedTree id = automaton.fullTree id := by
  have same : (fun content => .ok content.node.outlinedChildren) = automaton.allChildren :=
    funext fun content => congrArg Except.ok content.node.outlinedChildren_eq
  rw [outlinedTree, same, fullTree]

/-! ### The nodes of a tree -/

namespace Automaton

variable {automaton : Automaton}

/-- The nodes of a syntax tree are those below its root. -/
theorem Describes.mem_preorder_iff {tree : SyntaxTree} (described : automaton.Describes tree)
    {id : StateId} : id ∈ tree.preorder ↔ automaton.Below tree.id id := by
  induction described with
  | @node top content children found named described inductionHypothesis =>
    rw [SyntaxTree.preorder, SyntaxTree.preorderAll_eq_flatMap, List.mem_cons, List.mem_flatMap,
      SyntaxTree.id]
    constructor
    · rintro (rfl | ⟨child, member, inside⟩)
      · exact .refl
      · exact .head (child_of_mem found named member)
          ((inductionHypothesis child member).mp inside)
    · intro below
      rcases ReflTransGen.cases_head below with same | ⟨other, ⟨_, foundToo, member⟩, further⟩
      · exact .inl same.symm
      · cases found.symm.trans foundToo
        rw [← named] at member
        obtain ⟨child, inChildren, rfl⟩ := List.mem_map.mp member
        exact .inr ⟨child, inChildren, (inductionHypothesis child inChildren).mpr further⟩

/-- Unfolding a tree comes to no node twice. -/
theorem IsTree.nodup_preorder {root : StateId} (isTree : automaton.IsTree root)
    {tree : SyntaxTree} (described : automaton.Describes tree)
    (below : automaton.Below root tree.id) : tree.preorder.Nodup := by
  induction described with
  | @node top content children found named described inductionHypothesis =>
    have edge : ∀ child ∈ children, automaton.Child top child.id :=
      fun child member => child_of_mem found named member
    rw [SyntaxTree.preorder, SyntaxTree.preorderAll_eq_flatMap, List.nodup_cons,
      List.mem_flatMap, List.nodup_flatMap]
    refine ⟨?_, fun child member =>
      inductionHypothesis child member (below.tail (edge child member)), ?_⟩
    · rintro ⟨child, member, inside⟩
      exact isTree.not_below_of_child below (edge child member)
        ((described child member).mem_preorder_iff.mp inside)
    · have distinct : (children.map SyntaxTree.id).Nodup :=
        named ▸ isTree.nodup_children below found
      refine (List.pairwise_map.mp distinct).imp_of_mem
        fun {first second} inFirst inSecond apart id inside insideToo => apart ?_
      exact isTree.child_unique below (edge first inFirst) (edge second inSecond)
        ((described first inFirst).mem_preorder_iff.mp inside)
        ((described second inSecond).mem_preorder_iff.mp insideToo)

/-- A place in a tree belongs to a node of the tree. -/
theorem Describes.below_owner {tree : SyntaxTree} (described : automaton.Describes tree)
    {place : Place} (member : place ∈ tree.places) : automaton.Below tree.id place.owner := by
  induction described with
  | @node top content children found named described inductionHypothesis =>
    rw [SyntaxTree.places, List.mem_append, SyntaxTree.placesAll_eq_flatMap,
      List.mem_flatMap] at member
    rcases member with own | ⟨child, inChildren, inside⟩
    · exact TreeNode.owner_of_mem_places own ▸ .refl
    · exact .head (child_of_mem found named inChildren)
        (inductionHypothesis child inChildren inside)

/-- The places of a part of a tree stand together. -/
theorem Describes.exists_part {tree : SyntaxTree} (described : automaton.Describes tree)
    {id : StateId} (below : automaton.Below tree.id id) :
    ∃ part, automaton.Describes part ∧ part.id = id ∧ part.places <:+: tree.places := by
  induction described with
  | @node top content children found named described inductionHypothesis =>
    rcases ReflTransGen.cases_head below with same | ⟨other, ⟨_, foundToo, member⟩, further⟩
    · exact ⟨_, .node found named described, same, List.infix_rfl⟩
    · cases found.symm.trans foundToo
      rw [← named] at member
      obtain ⟨child, inChildren, rfl⟩ := List.mem_map.mp member
      obtain ⟨part, isPart, same, inside⟩ := inductionHypothesis child inChildren further
      refine ⟨part, isPart, same, inside.trans ?_⟩
      rw [SyntaxTree.places, SyntaxTree.placesAll_eq_flatMap]
      exact (List.infix_of_mem_flatten (List.mem_map_of_mem inChildren)).trans
        (List.suffix_append _ _).isInfix

end Automaton

/-! ### What is out of sight -/

namespace Automaton

variable {automaton : Automaton}

/-- Visitors of what is below the root do not come to a node: it is in the condition of a
conditional, and the condition is no lookaround. -/
def OutOfSight (automaton : Automaton) (root id : StateId) : Prop :=
  ∃ conditional content condition, automaton.Below root conditional ∧
    automaton.tree? conditional = some content ∧ content.node.condition? = some condition ∧
    automaton.isOfKind .lookAround condition = .ok false ∧ automaton.Below condition id

section

variable {root id : StateId} (isTree : automaton.IsTree root) (below : automaton.Below root id)

include isTree below

/-- A node is in sight of itself. -/
theorem IsTree.not_outOfSight : ¬ automaton.OutOfSight id id := by
  rintro ⟨conditional, content, condition, further, found, asks, -, back⟩
  exact isTree.acyclic below
    (.trans_right further (.head' ⟨content, found, Node.mem_children_of_condition? asks⟩ back))

/-- A node below a child is out of sight of the parent if the child is passed over or the node is
out of sight of the child. -/
theorem IsTree.outOfSight_iff {content : TreeNode} {child : SyntaxTree} {other : StateId}
    (found : automaton.tree? id = some content) (described : automaton.Describes child)
    (edge : automaton.Child id child.id) (belowChild : automaton.Below child.id other) :
    automaton.OutOfSight id other ↔
      content.node.passesOver child = true ∨ automaton.OutOfSight child.id other := by
  rw [described.passesOver_iff]
  constructor
  · rintro ⟨conditional, asking, condition, further, foundToo, asks, noLook, inside⟩
    have asked : automaton.Child conditional condition :=
      ⟨asking, foundToo, Node.mem_children_of_condition? asks⟩
    rcases ReflTransGen.cases_head further with rfl | ⟨between, toBetween, further⟩
    · cases found.symm.trans foundToo
      cases isTree.child_unique below edge asked belowChild inside
      exact .inl ⟨asks, noLook⟩
    · cases isTree.child_unique below edge toBetween belowChild
        (further.trans (.head asked inside))
      exact .inr ⟨conditional, asking, condition, further, foundToo, asks, noLook, inside⟩
  · rintro (⟨asks, noLook⟩ | ⟨conditional, asking, condition, further, visible⟩)
    · exact ⟨id, content, child.id, .refl, found, asks, noLook, belowChild⟩
    · exact ⟨conditional, asking, condition, .head edge further, visible⟩

end

open scoped Classical in
/-- The places that visitors come to are those in sight. -/
theorem IsTree.places_visited {root : StateId} (isTree : automaton.IsTree root)
    {tree : SyntaxTree} (described : automaton.Describes tree)
    (below : automaton.Below root tree.id) :
    tree.visited.places =
      tree.places.filter fun place => ¬ automaton.OutOfSight tree.id place.owner := by
  -- The induction keeps one root for all parts of the tree, so that two children can be told apart
  -- by what is below them; what is out of sight is seen from the part itself.
  induction described with
  | @node top content children found named described inductionHypothesis =>
    change automaton.Below root top at below
    change _ = List.filter (fun place : Place => ¬ automaton.OutOfSight top place.owner) _
    rw [SyntaxTree.visited, SyntaxTree.places, SyntaxTree.places, List.filter_append]
    refine congrArg₂ _ (List.filter_eq_self.mpr fun place member => decide_eq_true ?_).symm
      (SyntaxTree.placesAll_visitedBelow fun child member => ?_)
    · rw [TreeNode.owner_of_mem_places member]
      exact isTree.not_outOfSight below
    · have edge := child_of_mem found named member
      have hidden {place : Place} (inside : place ∈ child.places) :=
        isTree.outOfSight_iff below found (described child member) edge
          ((described child member).below_owner inside)
      cases passed : content.node.passesOver child with
      | true =>
        refine (List.filter_eq_nil_iff.mpr fun place inside => ?_).symm
        rw [decide_eq_true_iff, not_not]
        exact (hidden inside).mpr (.inl passed)
      | false =>
        have seen := inductionHypothesis child member (below.tail edge)
        rw [if_neg Bool.false_ne_true, seen]
        refine List.filter_congr fun place inside => decide_eq_decide.mpr (not_congr ?_)
        simp only [hidden inside, passed, Bool.false_eq_true, false_or]

/-! ### Tours and outlines of a part of a pattern -/

/-- Every condition below the root of a tree is read between its conditional and the yes pattern. -/
def ReadsConditions (automaton : Automaton) (tree : SyntaxTree) : Prop :=
  ∀ {conditional condition yes content bar no}, automaton.Below tree.id conditional →
    automaton.tree? conditional = some content →
    content.node = .conditional condition yes bar no →
    ∃ asked taken, automaton.Describes asked ∧ asked.id = condition ∧
      automaton.Describes taken ∧ taken.id = yes ∧
      content.places conditional ++ asked.places ++ taken.places <:+: tree.places

theorem Describes.readsConditions {tree : SyntaxTree} (described : automaton.Describes tree) :
    automaton.ReadsConditions tree := by
  intro conditional condition yes content bar no below found same
  obtain ⟨part, isPart, rfl, inside⟩ := described.exists_part below
  cases isPart with
  | @node id other children foundToo named each =>
    cases found.symm.trans foundToo
    rw [same, Node.children] at named
    obtain ⟨asked, rest, rfl, sameAsked, named⟩ := List.map_eq_cons_iff.mp named
    obtain ⟨taken, rest, rfl, sameTaken, named⟩ := List.map_eq_cons_iff.mp named
    refine ⟨asked, taken, each asked (.head _), sameAsked, each taken (.tail _ (.head _)),
      sameTaken, .trans ?_ inside⟩
    rw [SyntaxTree.places, SyntaxTree.placesAll, SyntaxTree.placesAll, ← List.append_assoc,
      ← List.append_assoc]
    exact (List.prefix_append _ _).isInfix

/-- A tree shows what is below a node: every node once, and every condition before what it
decides about. -/
structure Shows (automaton : Automaton) (id : StateId) (tree : SyntaxTree) : Prop where
  described : automaton.Describes tree
  id_eq : tree.id = id
  nodup : tree.preorder.Nodup
  mem_iff (other : StateId) : other ∈ tree.preorder ↔ automaton.Below id other
  readsConditions : automaton.ReadsConditions tree

/-- Both readings succeed below a node of a tree, the full one with a tree that shows what is there
and that of visitors with what it leaves of this tree. -/
theorem IsTree.shows {root id : StateId} (isTree : automaton.IsTree root)
    (below : automaton.Below root id) :
    ∃ tree, automaton.fullTree id = .ok tree ∧ automaton.visitedTree id = .ok tree.visited ∧
      automaton.Shows id tree := by
  obtain ⟨tree, unfolds, rfl, described⟩ := (isTree.of_below below).unfolds
  have walked := isTree.subtree_visited described below
    (fun ancestor above => absurd above List.not_mem_nil)
  exact ⟨tree, unfolds, walked, described, rfl, isTree.nodup_preorder described below,
    fun other => described.mem_preorder_iff, described.readsConditions⟩

end Automaton

section

variable {source : Source} {place : Place} {id : StateId}

theorem Place.arrival_eq_node_iff :
    place.arrival source = .node id ↔ place.node? = some id := by
  cases place <;> simp [arrival, node?, ClassElement.arrival]

theorem Place.owner_of_node? (isNode : place.node? = some id) : place.owner = id := by
  cases place with
  | node other content => exact Option.some.inj isNode
  | element owner part => cases isNode

/-- Among selected places a node of a tree is found once if it is selected. -/
theorem SyntaxTree.count_arrivals {tree : SyntaxTree} (distinct : tree.preorder.Nodup)
    (member : id ∈ tree.preorder) (selects : StateId → Prop) [DecidablePred selects] :
    ((tree.places.filter fun place => selects place.owner).map (Place.arrival source)).count
      (.node id) = if selects id then 1 else 0 := by
  rw [List.count_eq_countP, List.countP_map, List.countP_filter]
  by_cases selected : selects id
  · rw [if_pos selected, ← List.count_eq_one_of_mem distinct member, ← filterMap_node?_places,
      List.count_filterMap]
    refine List.countP_congr fun place _ => ?_
    rw [Bool.and_eq_true, Function.comp_apply, beq_iff_eq, beq_iff_eq, Place.arrival_eq_node_iff,
      decide_eq_true_iff]
    exact and_iff_left_of_imp fun isNode => (Place.owner_of_node? isNode).symm ▸ selected
  · rw [if_neg selected, List.countP_eq_zero]
    intro place _ both
    rw [Bool.and_eq_true, Function.comp_apply, beq_iff_eq, Place.arrival_eq_node_iff,
      decide_eq_true_iff] at both
    exact selected (Place.owner_of_node? both.1 ▸ both.2)

end

open scoped Classical in
/-- The tour and the outline of a part of a finished pattern agree. Both end; the outline has the
type and the text of every place, the tour comes to those in sight in the same order, and to each
node in sight once. -/
theorem tour_and_outline_agree {pattern : Pattern} (finished : pattern.Finished) {id : StateId}
    (below : pattern.automaton.Below pattern.root id) :
    ∃ tree events outline, pattern.automaton.Shows id tree ∧
      pattern.automaton.tour id = .ok events ∧ pattern.automaton.outline id = .ok outline ∧
      outline.titles = tree.places.map (Place.title pattern.automaton.source) ∧
      arrivals events = (tree.places.filter fun place =>
        ¬ pattern.automaton.OutOfSight id place.owner).map
          (Place.arrival pattern.automaton.source) ∧
      ∀ other, pattern.automaton.Below id other →
        (arrivals events).count (.node other) =
          if pattern.automaton.OutOfSight id other then 0 else 1 := by
  have isTree := finished.sound.isTree
  obtain ⟨tree, full, visited, shows⟩ := isTree.shows below
  have inSight := isTree.places_visited shows.described (shows.id_eq ▸ below)
  have come := (tree.visited.arrivals_events pattern.automaton.source).trans
    (congrArg (List.map _) inSight)
  rw [shows.id_eq] at come
  refine ⟨tree, tree.visited.events pattern.automaton.source,
    tree.outline pattern.automaton.source, shows, ?_, ?_, tree.titles_outline _, come,
    fun other belowToo => ?_⟩
  · rw [Automaton.tour, visited]
    rfl
  · rw [Automaton.outline, Automaton.outlinedTree_eq, full]
    rfl
  · rw [come, ← ite_not]
    exact SyntaxTree.count_arrivals shows.nodup ((shows.mem_iff other).mpr belowToo)
      fun other => ¬ pattern.automaton.OutOfSight id other

/-- The calls that build `(a)(?(1)[b-c[^d]]|e)`. -/
def referenceCalls : List Call :=
  let site (beginning ending : Int) : ClassSite := ⟨⟨beginning, ending⟩, .empty⟩
  let bounds : CharacterSpan := ⟨⟨⟨9, 10⟩, ⟨98, false⟩⟩, ⟨⟨11, 12⟩, ⟨99, false⟩⟩⟩
  let inner : ClassElement := .nested (site 12 16) ⟨⟨⟨12, 13⟩, '[', false⟩, true⟩
    (.item (site 14 15) (.character ⟨100, false⟩))
  let bracketed : CharacterClass := ⟨⟨⟨⟨8, 9⟩, '[', false⟩, false⟩,
    .union (site 9 16) [.item (site 9 12) (.span bounds), inner]⟩
  [.construct ⟨⟨1, 2⟩, .empty, .leaf (.character ⟨97, false⟩)⟩,
    .construct ⟨⟨0, 3⟩, .empty, .capturingGroup none 1 ⟨0⟩⟩,
    .construct ⟨⟨5, 8⟩, .empty, .leaf (.referenceCondition "1")⟩,
    .construct ⟨⟨8, 17⟩, .empty, .leaf (.characterClass bracketed)⟩,
    .construct ⟨⟨18, 19⟩, .empty, .leaf (.character ⟨101, false⟩)⟩,
    .construct ⟨⟨3, 20⟩, .empty, .conditional ⟨3⟩ ⟨4⟩ (some ⟨⟨17, 18⟩, '|', false⟩) (some ⟨5⟩)⟩,
    .construct ⟨⟨0, 20⟩, .empty, .sequence [⟨1⟩, ⟨6⟩]⟩]

/-- The pattern `(a)(?(1)[b-c[^d]]|e)`. -/
def referencePattern? : Option Pattern :=
  finishedPattern? ⟨"(a)(?(1)[b-c[^d]]|e)", .java, []⟩ referenceCalls ⟨8⟩ .empty

/-- In `(a)(?(1)[b-c[^d]]|e)` the outline has the condition, and the tour leaves it out. -/
theorem reference_tour_and_outline_agree :
    ∃ pattern, ∃ tree : SyntaxTree, ∃ events outline, referencePattern? = some pattern ∧
      pattern.automaton.Below pattern.root pattern.root ∧
      pattern.automaton.tour pattern.root = .ok events ∧
      pattern.automaton.outline pattern.root = .ok outline ∧
      outline.titles = tree.places.map (Place.title pattern.automaton.source) ∧
      ⟨3⟩ ∈ tree.preorder ∧ (arrivals events).count (.node ⟨3⟩) = 0 := by
  have computed : (referencePattern?.map fun pattern =>
      (decide (pattern.automaton.Child pattern.root ⟨6⟩ ∧ pattern.automaton.Child ⟨6⟩ ⟨3⟩),
        (pattern.automaton.tree? ⟨6⟩).bind fun content => content.node.condition?,
        pattern.automaton.isOfKind .lookAround ⟨3⟩)) =
      some (true, some ⟨3⟩, .ok false) := by decide +kernel
  obtain ⟨pattern, built, facts⟩ := Option.map_eq_some_iff.mp computed
  obtain ⟨named, others⟩ := Prod.mk.inj facts
  obtain ⟨asks, noLook⟩ := Prod.mk.inj others
  obtain ⟨toConditional, toCondition⟩ := decide_eq_true_iff.mp named
  obtain ⟨content, found, asks⟩ := Option.bind_eq_some_iff.mp asks
  have below : pattern.automaton.Below pattern.root ⟨3⟩ := .tail (.single toConditional) toCondition
  have hidden : pattern.automaton.OutOfSight pattern.root ⟨3⟩ :=
    ⟨⟨6⟩, content, ⟨3⟩, .single toConditional, found, asks, noLook, .refl⟩
  obtain ⟨tree, events, outline, shows, toured, outlined, titles, -, counted⟩ :=
    tour_and_outline_agree (finished_of_finishedPattern? built) .refl
  refine ⟨pattern, tree, events, outline, built, .refl, toured, outlined, titles,
    (shows.mem_iff _).mpr below, ?_⟩
  rw [counted _ below, if_pos hidden]

end PatternGraph
