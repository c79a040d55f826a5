/-
This file finds for each state of a pattern its twin in a pattern that was built in another order.
The handles are different ones, and so is the place of the glue in the arena, but the two trees are
the same: their nodes stand at the same positions, with the same range, flags and payload.

`Counterparts` are nodes at the same position. In a tree a node has one position only, so a node has
one counterpart, and if the trees are the same it has one in any case. Glue is told from other glue
by its kind and its owner, as the inventory of the arena says, and both patterns have the same glue
in stock for counterparts. So every state has exactly one twin, once all nodes are below the root.
-/

import PatternGraph.Proofs.Renaming.Payload

namespace PatternGraph

open Relation

/-! ### The same tree -/

namespace Pattern

/-- A pairing of nodes pairs the roots, and what it pairs are the same nodes, with paired children
in the same order. -/
structure Pairing (first second : Pattern) (paired : StateId → StateId → Prop) : Prop where
  root : paired first.root second.root
  node {id twin : StateId} : paired id twin →
    ∃ treeNode other, first.automaton.tree? id = some treeNode ∧
      second.automaton.tree? twin = some other ∧ treeNode.SameAs other ∧
      List.Forall₂ paired treeNode.node.children other.node.children

/-- The trees below the roots are the same, whatever the handles of their nodes. -/
def SameTree (first second : Pattern) : Prop := ∃ paired, first.Pairing second paired

/-- Every tree node is below the root. -/
def LacksOrphans (pattern : Pattern) : Prop :=
  ∀ ⦃id : StateId⦄ ⦃treeNode : TreeNode⦄, pattern.automaton.tree? id = some treeNode →
    pattern.automaton.Below pattern.root id

/-! ### Counterparts -/

/-- Nodes at the same position of their trees. -/
inductive Counterparts (first second : Pattern) : StateId → StateId → Prop
  | root : Counterparts first second first.root second.root
  | child {id twin named other : StateId} {treeNode otherNode : TreeNode} {index : Nat}
    (above : Counterparts first second id twin)
    (isTree : first.automaton.tree? id = some treeNode)
    (alsoTree : second.automaton.tree? twin = some otherNode)
    (member : treeNode.node.children[index]? = some named)
    (alsoMember : otherNode.node.children[index]? = some other) :
    Counterparts first second named other

/-- Nodes at the same position are the same, with as many children. -/
def Corresponds (first second : Pattern) : Prop :=
  ∀ ⦃id twin : StateId⦄, first.Counterparts second id twin →
    ∃ treeNode other, first.automaton.tree? id = some treeNode ∧
      second.automaton.tree? twin = some other ∧ treeNode.SameAs other ∧
      other.node.children.length = treeNode.node.children.length

section

variable {first second : Pattern} {id twin : StateId}

theorem Counterparts.symm (counterparts : first.Counterparts second id twin) :
    second.Counterparts first twin id := by
  induction counterparts with
  | root => exact .root
  | child _ isTree alsoTree member alsoMember inductionHypothesis =>
    exact .child inductionHypothesis alsoTree isTree alsoMember member

theorem Counterparts.inTree (counterparts : first.Counterparts second id twin) :
    first.automaton.Below first.root id := by
  induction counterparts with
  | root => exact .refl
  | child _ isTree _ member _ inductionHypothesis =>
    exact inductionHypothesis.tail ⟨_, isTree, List.mem_of_getElem? member⟩

/-- A node has at most one counterpart, since it has one position in its tree. -/
theorem Counterparts.unique (tree : first.automaton.IsTree first.root)
    (counterparts : first.Counterparts second id twin) {other : StateId}
    (also : first.Counterparts second id other) : twin = other := by
  induction counterparts generalizing other with
  | root =>
    cases also with
    | root => rfl
    | child above isTree _ member _ =>
      exact absurd ⟨_, isTree, List.mem_of_getElem? member⟩ (tree.root_not_child above.inTree)
  | @child parent parentTwin named other treeNode otherNode index above isTree alsoTree member
    alsoMember inductionHypothesis =>
    -- The node has one parent only, and one place among the children of that.
    have child : first.automaton.Child parent named :=
      ⟨treeNode, isTree, List.mem_of_getElem? member⟩
    generalize same : named = again at also
    cases also with
    | root => exact absurd (same ▸ child) (tree.root_not_child above.inTree)
    | child aboveToo isTreeToo alsoTreeToo memberToo alsoMemberToo =>
      subst same
      have childToo : first.automaton.Child _ named :=
        ⟨_, isTreeToo, List.mem_of_getElem? memberToo⟩
      obtain rfl := tree.parent_unique above.inTree aboveToo.inTree child childToo
      obtain rfl := inductionHypothesis aboveToo
      cases isTree.symm.trans isTreeToo
      cases alsoTree.symm.trans alsoTreeToo
      have inBounds := (List.getElem?_eq_some_iff.mp member).1
      obtain rfl := (List.getElem?_inj inBounds (tree.nodup_children above.inTree isTree)).mp
        (member.trans memberToo.symm)
      exact Option.some.inj (alsoMember.symm.trans alsoMemberToo)

theorem Corresponds.symm (corresponds : first.Corresponds second) : second.Corresponds first := by
  intro id twin counterparts
  obtain ⟨treeNode, other, isTree, alsoTree, same, count⟩ := corresponds counterparts.symm
  exact ⟨other, treeNode, alsoTree, isTree, ⟨same.range.symm, same.flags.symm, same.payload.symm⟩,
    count.symm⟩

/-- Every node below the root has a counterpart. -/
theorem Corresponds.exists_counterpart (corresponds : first.Corresponds second)
    (below : first.automaton.Below first.root id) :
    ∃ twin, first.Counterparts second id twin := by
  induction below with
  | refl => exact ⟨second.root, .root⟩
  | tail _ named inductionHypothesis =>
    obtain ⟨twin, counterparts⟩ := inductionHypothesis
    obtain ⟨treeNode, isTree, member⟩ := named
    obtain ⟨same, otherNode, isTreeToo, alsoTree, -, count⟩ := corresponds counterparts
    cases isTree.symm.trans isTreeToo
    obtain ⟨index, inBounds, rfl⟩ := List.mem_iff_getElem.mp member
    exact ⟨_, .child counterparts isTree alsoTree (List.getElem?_eq_getElem inBounds)
      (List.getElem?_eq_getElem (count ▸ inBounds))⟩

/-- A pairing pairs all counterparts. -/
theorem Pairing.paired {paired : StateId → StateId → Prop} (pairing : first.Pairing second paired)
    (counterparts : first.Counterparts second id twin) : paired id twin := by
  induction counterparts with
  | root => exact pairing.root
  | child _ isTree alsoTree member alsoMember inductionHypothesis =>
    obtain ⟨treeNode, other, isTreeToo, alsoTreeToo, -, children⟩ :=
      pairing.node inductionHypothesis
    cases isTree.symm.trans isTreeToo
    cases alsoTree.symm.trans alsoTreeToo
    obtain ⟨inBounds, rfl⟩ := List.getElem?_eq_some_iff.mp member
    obtain ⟨alsoInBounds, rfl⟩ := List.getElem?_eq_some_iff.mp alsoMember
    exact children.get inBounds alsoInBounds

theorem SameTree.corresponds (same : first.SameTree second) : first.Corresponds second := by
  obtain ⟨paired, pairing⟩ := same
  intro id twin counterparts
  obtain ⟨treeNode, other, isTree, alsoTree, sameNode, children⟩ :=
    pairing.node (pairing.paired counterparts)
  exact ⟨treeNode, other, isTree, alsoTree, sameNode, children.length_eq.symm⟩

end

end Pattern

/-- Two patterns with the same tree that were finished with the same flags. -/
structure Pattern.Rebuilt (first second : Pattern) : Prop where
  finished : first.Finished
  alsoFinished : second.Finished
  corresponds : first.Corresponds second
  initialFlags : second.initialFlags = first.initialFlags

theorem Pattern.Rebuilt.symm {first second : Pattern} (rebuilt : first.Rebuilt second) :
    second.Rebuilt first :=
  ⟨rebuilt.alsoFinished, rebuilt.finished, rebuilt.corresponds.symm, rebuilt.initialFlags.symm⟩

/-! ### Twins -/

namespace Pattern

/-- Counterparts, and glue of one kind whose owners are counterparts. -/
inductive Twins (first second : Pattern) : StateId → StateId → Prop
  | node {id twin : StateId} (counterparts : first.Counterparts second id twin) :
    Twins first second id twin
  | glue {id twin : StateId} {kind : GlueKind} {owner otherOwner : Option StateId}
    (owners : Option.Rel (first.Counterparts second) owner otherOwner)
    (listed : first.automaton.Lists kind owner id)
    (alsoListed : second.automaton.Lists kind otherOwner twin) : Twins first second id twin

section

variable {first second : Pattern} {id twin : StateId}

theorem Twins.symm (twins : first.Twins second id twin) : second.Twins first twin id := by
  cases twins with
  | node counterparts => exact .node counterparts.symm
  | glue owners listed alsoListed =>
    refine .glue ?_ alsoListed listed
    cases owners with
    | none => exact .none
    | some counterparts => exact .some counterparts.symm

/-- The twin of a node is its counterpart. -/
theorem Twins.counterparts_of_tree? (twins : first.Twins second id twin) {treeNode : TreeNode}
    (isTree : first.automaton.tree? id = some treeNode) : first.Counterparts second id twin := by
  cases twins with
  | node counterparts => exact counterparts
  | glue owners listed alsoListed =>
    obtain ⟨state, found, isListed⟩ := listed
    cases found.symm.trans (Automaton.tree?_eq_some_iff.mp isTree)
    cases isListed

namespace Rebuilt

variable (rebuilt : first.Rebuilt second)

include rebuilt

theorem counterparts_unique (counterparts : first.Counterparts second id twin) {other : StateId}
    (also : first.Counterparts second id other) : twin = other :=
  counterparts.unique rebuilt.finished.sound.isTree also

/-- Glue is no counterpart of anything. -/
theorem not_lists (counterparts : first.Counterparts second id twin) {kind : GlueKind}
    {owner : Option StateId} : ¬ first.automaton.Lists kind owner id := by
  rintro ⟨state, found, listed⟩
  obtain ⟨treeNode, -, isTree, -⟩ := rebuilt.corresponds counterparts
  cases found.symm.trans (Automaton.tree?_eq_some_iff.mp isTree)
  cases listed

/-- Counterparts have the same glue in stock, since both are linked. -/
theorem glue_eq (counterparts : first.Counterparts second id twin) :
    ∃ treeNode other, first.automaton.tree? id = some treeNode ∧
      second.automaton.tree? twin = some other ∧ other.glue = treeNode.glue := by
  obtain ⟨treeNode, other, isTree, alsoTree, same, -⟩ := rebuilt.corresponds counterparts
  obtain ⟨_, _, isTreeToo, continues⟩ :=
    rebuilt.finished.sound.followedBy_below counterparts.inTree
  obtain ⟨_, _, alsoTreeToo, alsoContinues⟩ :=
    rebuilt.alsoFinished.sound.followedBy_below counterparts.symm.inTree
  cases isTree.symm.trans isTreeToo
  cases alsoTree.symm.trans alsoTreeToo
  refine ⟨treeNode, other, isTree, alsoTree, ?_⟩
  rw [TreeNode.glue, TreeNode.glue, if_pos continues.isLinked, if_pos alsoContinues.isLinked,
    same.payload.builtGlue, same.payload.linkedGlue]

/-- The twin of glue is glue of the same kind, and the owners are counterparts. -/
theorem owners_of_lists (twins : first.Twins second id twin) {kind : GlueKind}
    {owner : Option StateId} (listed : first.automaton.Lists kind owner id) :
    ∃ otherOwner, Option.Rel (first.Counterparts second) owner otherOwner ∧
      second.automaton.Lists kind otherOwner twin := by
  cases twins with
  | node counterparts => exact absurd listed (rebuilt.not_lists counterparts)
  | glue owners listedToo alsoListed =>
    obtain ⟨state, found, isListed⟩ := listed
    obtain ⟨same, foundToo, isListedToo⟩ := listedToo
    cases found.symm.trans foundToo
    cases isListed.symm.trans isListedToo
    exact ⟨_, owners, alsoListed⟩

/-- A state has at most one twin. -/
theorem twins_unique (twins : first.Twins second id twin) {other : StateId}
    (also : first.Twins second id other) : twin = other := by
  cases twins with
  | node counterparts =>
    obtain ⟨treeNode, -, isTree, -⟩ := rebuilt.corresponds counterparts
    exact rebuilt.counterparts_unique counterparts (also.counterparts_of_tree? isTree)
  | glue owners listed alsoListed =>
    obtain ⟨otherOwner, ownersToo, alsoListedToo⟩ := rebuilt.owners_of_lists also listed
    refine rebuilt.alsoFinished.stocked.unique (by decide) alsoListed ?_
    cases owners with
    | none =>
      cases ownersToo
      exact alsoListedToo
    | some counterparts =>
      cases ownersToo with
      | some counterpartsToo =>
        rw [rebuilt.counterparts_unique counterparts counterpartsToo]
        exact alsoListedToo

/-- Glue has a twin if its owner has a counterpart. -/
theorem exists_twin_of_lists {kind : GlueKind} {owner otherOwner : Option StateId}
    (owners : Option.Rel (first.Counterparts second) owner otherOwner)
    (listed : first.automaton.Lists kind owner id) : ∃ twin, first.Twins second id twin := by
  have due := rebuilt.finished.stocked.mem_glue.mp (Automaton.mem_glue.mpr ⟨id, listed⟩)
  have alsoDue : kind ∈ second.automaton.due [.final, .start] otherOwner := by
    cases owners with
    | none => exact due
    | some counterparts =>
      obtain ⟨treeNode, other, isTree, alsoTree, glue⟩ := rebuilt.glue_eq counterparts
      rw [Automaton.due, isTree, Option.map_some, ← glue] at due
      rw [Automaton.due, alsoTree]
      exact due
  obtain ⟨twin, alsoListed⟩ :=
    Automaton.mem_glue.mp (rebuilt.alsoFinished.stocked.mem_glue.mpr alsoDue)
  exact ⟨twin, .glue owners listed alsoListed⟩

/-- Where no node is an orphan, every state has a twin. -/
theorem exists_twin (lacks : first.LacksOrphans) {state : State}
    (found : first.automaton.state? id = some state) : ∃ twin, first.Twins second id twin := by
  cases isTree : state.tree? with
  | some treeNode =>
    have node : first.automaton.tree? id = some treeNode :=
      (Automaton.tree?_of_state? found).trans isTree
    obtain ⟨twin, counterparts⟩ := rebuilt.corresponds.exists_counterpart (lacks node)
    exact ⟨twin, .node counterparts⟩
  | none =>
    obtain ⟨kind, listed⟩ := Automaton.exists_lists_of_glue found isTree
    cases owned : state.owner? with
    | none => exact rebuilt.exists_twin_of_lists .none (owned ▸ listed)
    | some owner =>
      obtain ⟨treeNode, isTree, -⟩ := rebuilt.finished.glueOwned found owner owned
      obtain ⟨otherOwner, counterparts⟩ := rebuilt.corresponds.exists_counterpart (lacks isTree)
      exact rebuilt.exists_twin_of_lists (.some counterparts) (owned ▸ listed)

end Rebuilt

end

end Pattern

end PatternGraph
