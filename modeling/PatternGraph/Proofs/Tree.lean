/-
This file says when the child links below a node form a tree, and what follows once they do.
Children are named by handle, so nothing in the arena itself keeps a node from being named twice,
from being its own descendant, or from not existing at all.

`IsTree` collects what has to hold of the nodes below a root. It follows from less: if all of them
are tree nodes, the root is no child and every other node is named at one place, then nothing below
the root is its own descendant, because a loop would have no way in from the root. A tree in this
sense can be unfolded into a `SyntaxTree`, whose nodes are those of the automaton.
-/

import Mathlib.Data.Set.Finite.Lattice
import Mathlib.Logic.Relation
import PatternGraph.Proofs.Arena
import PatternGraph.SyntaxTree

namespace PatternGraph

namespace Automaton

open Relation

/-- One node names the other as a child. -/
def Child (automaton : Automaton) (parent child : StateId) : Prop :=
  ∃ treeNode, automaton.tree? parent = some treeNode ∧ child ∈ treeNode.node.children

instance (automaton : Automaton) (parent child : StateId) :
    Decidable (automaton.Child parent child) :=
  decidable_of_iff ((automaton.tree? parent).any fun treeNode =>
      decide (child ∈ treeNode.node.children)) (by simp [Child, Option.any_eq_true])

/-- A node is below itself, and so are its children and what is below them. -/
def Below (automaton : Automaton) (root id : StateId) : Prop := ReflTransGen automaton.Child root id

/-- The child links below the root form a finite tree of existing tree nodes. -/
structure IsTree (automaton : Automaton) (root : StateId) : Prop where
  exists_tree {id : StateId} : automaton.Below root id →
    ∃ treeNode, automaton.tree? id = some treeNode
  finite : {id | automaton.Below root id}.Finite
  root_not_child {parent : StateId} : automaton.Below root parent → ¬ automaton.Child parent root
  /-- Every other node is a child at exactly one place. -/
  parent {id : StateId} : automaton.Below root id → id ≠ root →
    ∃ parent treeNode, automaton.Below root parent ∧ automaton.tree? parent = some treeNode ∧
      treeNode.node.children.count id = 1 ∧
      ∀ other, automaton.Below root other → automaton.Child other id → other = parent
  acyclic {id : StateId} : automaton.Below root id → ¬ TransGen automaton.Child id id

section

variable {automaton : Automaton} {root : StateId}

/-- A loop below the root would be entered at a node with two parents. -/
theorem not_transGen_child
    (rootNotChild : ∀ {parent}, automaton.Below root parent → ¬ automaton.Child parent root)
    (unique : ∀ {parent other child}, automaton.Below root parent → automaton.Below root other →
      automaton.Child parent child → automaton.Child other child → parent = other)
    {id : StateId} (below : automaton.Below root id) : ¬ TransGen automaton.Child id id := by
  induction below with
  | refl =>
    intro loop
    obtain ⟨last, path, named⟩ := TransGen.tail'_iff.mp loop
    exact rootNotChild path named
  | tail above named inductionHypothesis =>
    rename_i parent child
    intro loop
    obtain ⟨last, path, namedByLast⟩ := TransGen.tail'_iff.mp loop
    have belowLast : automaton.Below root last := (above.tail named).trans path
    have same : parent = last := unique above belowLast named namedByLast
    subst same
    exact inductionHypothesis (TransGen.head' named path)

theorem finite_below (exists_tree : ∀ {id}, automaton.Below root id →
    ∃ treeNode, automaton.tree? id = some treeNode) : {id | automaton.Below root id}.Finite := by
  refine ((Set.finite_lt_nat automaton.size).image StateId.mk).subset ?_
  intro id below
  obtain ⟨treeNode, isTree⟩ := exists_tree below
  exact ⟨id.index, lt_size_of_state? (tree?_eq_some_iff.mp isTree), rfl⟩

/-- It is enough for a tree that every node below the root exists, that the root is no child and
that no node is named at two places. -/
theorem isTree_of_unique_parent
    (exists_tree : ∀ {id}, automaton.Below root id → ∃ treeNode, automaton.tree? id = some treeNode)
    (rootNotChild : ∀ {parent}, automaton.Below root parent → ¬ automaton.Child parent root)
    (nodup : ∀ {parent treeNode}, automaton.Below root parent →
      automaton.tree? parent = some treeNode → treeNode.node.children.Nodup)
    (unique : ∀ {parent other child}, automaton.Below root parent → automaton.Below root other →
      automaton.Child parent child → automaton.Child other child → parent = other) :
    automaton.IsTree root := by
  refine ⟨exists_tree, finite_below exists_tree, rootNotChild, fun {id} below other => ?_,
    not_transGen_child rootNotChild unique⟩
  rcases ReflTransGen.cases_tail below with same | ⟨parent, above, named⟩
  · exact absurd same other
  · obtain ⟨treeNode, isTree, member⟩ := named
    refine ⟨parent, treeNode, above, isTree,
      List.count_eq_one_of_mem (nodup above isTree) member, fun second aboveToo namedToo => ?_⟩
    exact unique aboveToo above namedToo ⟨treeNode, isTree, member⟩

/-- A node of a tree has one parent. -/
theorem IsTree.parent_unique (isTree : automaton.IsTree root) {parent other child : StateId}
    (below : automaton.Below root parent) (belowToo : automaton.Below root other)
    (named : automaton.Child parent child) (namedToo : automaton.Child other child) :
    parent = other := by
  have apart : child ≠ root := by
    rintro rfl
    exact isTree.root_not_child below named
  obtain ⟨only, treeNode, -, -, -, unique⟩ := isTree.parent (below.tail named) apart
  rw [unique parent below named, unique other belowToo namedToo]

/-- A node of a tree has no child twice. -/
theorem IsTree.nodup_children (isTree : automaton.IsTree root) {id : StateId} {treeNode : TreeNode}
    (below : automaton.Below root id) (found : automaton.tree? id = some treeNode) :
    treeNode.node.children.Nodup := by
  rw [List.nodup_iff_count_eq_one]
  intro child member
  have named : automaton.Child id child := ⟨treeNode, found, member⟩
  have apart : child ≠ root := by
    rintro rfl
    exact isTree.root_not_child below named
  obtain ⟨only, same, -, foundToo, once, unique⟩ := isTree.parent (below.tail named) apart
  cases unique id below named
  cases found.symm.trans foundToo
  exact once

end

/-! ### Unfolding a tree -/

/-- The nodes of a syntax tree are those of the automaton, each with its children in order. -/
inductive Describes (automaton : Automaton) : SyntaxTree → Prop
  | node {id : StateId} {content : TreeNode} {children : List SyntaxTree}
    (isTree : automaton.tree? id = some content)
    (named : children.map SyntaxTree.id = content.node.children)
    (described : ∀ child ∈ children, Describes automaton child) :
    Describes automaton (.node id content children)

/-- Every node below the root of a syntax tree is the root of a part of it. -/
theorem Describes.exists_of_below {automaton : Automaton} {tree : SyntaxTree}
    (described : automaton.Describes tree) {id : StateId} (below : automaton.Below tree.id id) :
    ∃ part, automaton.Describes part ∧ part.id = id := by
  induction described with
  | @node top content children isTree named described inductionHypothesis =>
    rcases ReflTransGen.cases_head below with same | ⟨child, ⟨found, isTreeToo, member⟩, rest⟩
    · exact ⟨_, .node isTree named described, same⟩
    · cases isTree.symm.trans isTreeToo
      rw [← named] at member
      obtain ⟨tree, inChildren, rfl⟩ := List.mem_map.mp member
      exact inductionHypothesis tree inChildren rest

/-- Unfolding succeeds below the root of a tree: all handles name tree nodes, and no node is met
among its ancestors. -/
theorem IsTree.unfolds {automaton : Automaton} {root : StateId} (isTree : automaton.IsTree root) :
    ∃ tree, automaton.fullTree root = .ok tree ∧ tree.id = root ∧ automaton.Describes tree := by
  refine subtree.induct automaton automaton.allChildren
    (fun ancestors id => automaton.Below root id →
      (∀ ancestor ∈ ancestors, TransGen automaton.Child ancestor id) →
      ∃ tree, automaton.subtree automaton.allChildren ancestors id = .ok tree ∧ tree.id = id ∧
        automaton.Describes tree)
    (fun ancestors ids => (∀ id ∈ ids, automaton.Below root id ∧
        ∀ ancestor ∈ ancestors, TransGen automaton.Child ancestor id) →
      ∃ trees, automaton.subtrees automaton.allChildren ancestors ids = .ok trees ∧
        trees.map SyntaxTree.id = ids ∧ ∀ tree ∈ trees, automaton.Describes tree)
    ?noTree ?cyclic ?noChildren ?node ?nil ?badChild ?cons [] root .refl (by simp)
  case noTree =>
    intro ancestors id fault missing below
    obtain ⟨treeNode, found⟩ := isTree.exists_tree below
    rw [tree_eq_ok_iff.mpr found] at missing
    cases missing
  case cyclic =>
    intro ancestors id content found recurs below descends
    exact absurd (descends id (by simpa using recurs)) (isTree.acyclic below)
  case noChildren =>
    intro ancestors id content found fresh fault refused
    cases refused
  case node =>
    intro ancestors id content found fresh children named inductionHypothesis below descends
    cases named
    have isNode := tree_eq_ok_iff.mp found
    obtain ⟨trees, unfolded, ids, described⟩ := inductionHypothesis fun child member => by
      have edge : automaton.Child id child := ⟨content, isNode, member⟩
      refine ⟨below.tail edge, fun ancestor above => ?_⟩
      rcases List.mem_cons.mp above with same | further
      · exact same ▸ .single edge
      · exact (descends ancestor further).tail edge
    refine ⟨.node id content trees, ?_, rfl, .node isNode ids described⟩
    rw [subtree]
    split
    · rename_i fault missing
      cases found.symm.trans missing
    · rename_i other same
      cases found.symm.trans same
      rw [dif_neg fresh]
      dsimp only [allChildren]
      rw [unfolded]
      rfl
  case nil =>
    intro ancestors _
    exact ⟨[], by rw [subtrees], rfl, by simp⟩
  case badChild =>
    intro ancestors id rest fault refused inductionHypothesis each
    obtain ⟨below, descends⟩ := each id List.mem_cons_self
    obtain ⟨tree, unfolded, -⟩ := inductionHypothesis below descends
    rw [refused] at unfolded
    cases unfolded
  case cons =>
    intro ancestors id rest first unfolded firstHypothesis restHypothesis each
    obtain ⟨below, descends⟩ := each id List.mem_cons_self
    obtain ⟨tree, same, named, described⟩ := firstHypothesis below descends
    cases unfolded.symm.trans same
    obtain ⟨trees, others, ids, all⟩ := restHypothesis fun other member =>
      each other (List.mem_cons_of_mem _ member)
    refine ⟨first :: trees, ?_, ?_, ?_⟩
    · rw [subtrees, unfolded, others]
      rfl
    · rw [List.map_cons, named, ids]
    · simpa using ⟨described, all⟩

end Automaton

end PatternGraph
