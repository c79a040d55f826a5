/-
This file proves that what a node encloses is entered by way of that node only. Fix some nodes as
gates. The states outside of them are the nodes that are below no gate, and the glue that leads to
such states only; and a move from such a state that is not a gate itself leads to such a state
again. So every path from the outside into what a gate encloses passes a gate.

Two facts make this up. What follows a node that is not enclosed is outside, by induction from the
root downwards: it is a sibling, what follows the parent, or glue of the parent that leads there.
And a node moves to its children, to its continuation, or into its element by way of its glue.

With no gates at all it follows that everything that can be reached below the root of a finished
pattern is linked.
-/

import PatternGraph.Proofs.Finish
import PatternGraph.Proofs.Moves
import PatternGraph.Proofs.Reach.Search

namespace PatternGraph

open Relation

/-! ### Where a node moves to -/

theorem Link.next_mem_of_mem_chain {items : List StateId} {link : Link}
    (member : link ∈ Link.chain items) : link.next ∈ items := by
  induction items with
  | nil => cases member
  | cons first rest inductionHypothesis =>
    cases rest with
    | nil => cases member
    | cons second others =>
      rcases List.mem_cons.mp member with rfl | later
      · exact List.mem_cons_of_mem _ List.mem_cons_self
      · exact List.mem_cons_of_mem _ (inductionHypothesis later)

/-- A node that stores its continuation moves to children, to the continuation and, if it is a
lookaround, to its entry. -/
theorem TreeNode.exists_successors {treeNode : TreeNode} {next : StateId}
    (stored : treeNode.continuation = some next) :
    ∃ nexts, treeNode.successors = .ok nexts ∧ ∀ choice ∈ nexts,
      choice ∈ treeNode.node.children ∨ choice = next ∨ ∃ body polarity direction,
        treeNode.node = .lookAround body polarity direction choice := by
  have exits : treeNode.exit = .ok next := by rw [TreeNode.exit, stored]
  unfold TreeNode.successors
  cases content : treeNode.node with
  | sequence items =>
    cases items with
    | nil => exact ⟨[next], by simp [exits, Except.map], by simp⟩
    | cons first rest => exact ⟨[first], rfl, by simp⟩
  | nonCapturingGroup body enabled disabled =>
    cases body with
    | none => exact ⟨[next], by simp [exits, Except.map], by simp⟩
    | some inner => exact ⟨[inner.element], rfl, by simp⟩
  | repetition element quantifier =>
    simp only [exits, Except.map]
    split_ifs
    · exact ⟨[element], rfl, by simp⟩
    · exact ⟨[next], rfl, by simp⟩
    · exact ⟨[next, element], rfl, by simp⟩
    · exact ⟨[element, next], rfl, by simp⟩
  | lookAround body polarity direction entry =>
    exact ⟨[entry, next], by simp [exits, Except.map], by simp⟩
  | disjunction alternatives bars =>
    exact ⟨alternatives, rfl, fun choice member => Or.inl member⟩
  | capturingGroup body name number => exact ⟨[body.element], rfl, by simp⟩
  | atomicGroup body => exact ⟨[body.element], rfl, by simp⟩
  | leaf leaf => exact ⟨[next], by simp [exits, Except.map], by simp⟩
  | conditional condition yes bar no => exact ⟨[next], by simp [exits, Except.map], by simp⟩

namespace Automaton

section

variable (automaton : Automaton) (gate : StateId → Prop)

/-! ### Inside and outside -/

/-- No gate is passed on the way from the root down to the node, which may be one itself. -/
def Unenclosed : StateId → StateId → Prop :=
  ReflTransGen fun parent child => ¬ gate parent ∧ automaton.Child parent child

/-- The nodes that no gate encloses, and the glue that leads to such states only. -/
inductive Outside (root : StateId) : StateId → Prop
  | node {id : StateId} (unenclosed : automaton.Unenclosed gate root id) : Outside root id
  | glue {id : StateId} {nexts : List StateId} (isGlue : automaton.tree? id = none)
    (offered : automaton.successors id = .ok nexts)
    (onward : ∀ next ∈ nexts, Outside root next) : Outside root id

end

section

variable {automaton : Automaton} {gate : StateId → Prop} {root : StateId}

theorem Unenclosed.below {id : StateId} (unenclosed : automaton.Unenclosed gate root id) :
    automaton.Below root id :=
  ReflTransGen.mono (fun _ _ step => And.right step) _ _ unenclosed

/-- A node below no gate is not enclosed. -/
theorem unenclosed_of_below {id : StateId} (below : automaton.Below root id)
    (free : ∀ owner, gate owner → ¬ TransGen automaton.Child owner id) :
    automaton.Unenclosed gate root id := by
  induction below with
  | refl => exact .refl
  | tail _ named inductionHypothesis =>
    have freeParent (owner : StateId) (isGate : gate owner) :
        ¬ TransGen automaton.Child owner _ := fun path => free owner isGate (path.tail named)
    exact (inductionHypothesis freeParent).tail
      ⟨fun isGate => free _ isGate (.single named), named⟩

/-- In a tree a node below a gate is enclosed. -/
theorem Unenclosed.not_transGen_child (tree : automaton.IsTree root) {id owner : StateId}
    (unenclosed : automaton.Unenclosed gate root id) (isGate : gate owner)
    (below : automaton.Below root owner) : ¬ TransGen automaton.Child owner id := by
  induction unenclosed with
  | refl =>
    intro path
    obtain ⟨last, above, named⟩ := TransGen.tail'_iff.mp path
    exact tree.root_not_child (below.trans above) named
  | @tail parent child before step inductionHypothesis =>
    obtain ⟨notGate, named⟩ := step
    have aboveParent : automaton.Below root parent := Unenclosed.below before
    intro path
    obtain ⟨last, above, namedByLast⟩ := TransGen.tail'_iff.mp path
    -- A child has one parent, so the path from the gate comes down through this one.
    have other : child ≠ root := fun same => tree.root_not_child aboveParent (same ▸ named)
    obtain ⟨only, -, -, -, -, unique⟩ := tree.parent (aboveParent.tail named) other
    have same : last = parent :=
      (unique last (below.trans above) namedByLast).trans (unique parent aboveParent named).symm
    rcases reflTransGen_iff_eq_or_transGen.mp (same ▸ above) with rfl | further
    · exact notGate isGate
    · exact inductionHypothesis further

/-! ### Glue -/

theorem outside_endOfRepetition {owner close next : StateId}
    (held : automaton.state? close = some (.endOfRepetition owner next))
    (after : automaton.Outside gate root next) : automaton.Outside gate root close :=
  .glue (tree?_of_state? held) (successors_of_own held rfl) (by simpa using after)

theorem outside_branch {owner branch : StateId} {choices : List StateId}
    (held : automaton.state? branch = some (.branch owner choices))
    (onward : ∀ choice ∈ choices, automaton.Outside gate root choice) :
    automaton.Outside gate root branch :=
  .glue (tree?_of_state? held) (successors_branch held) onward

theorem outside_end {id close next : StateId} {state : State} {treeNode : TreeNode}
    (held : automaton.state? close = some state)
    (ends : state = .endOfCapturingGroup id ∨ state = .endOfLookaround id ∨
      state = .endOfConditional id)
    (isTree : automaton.tree? id = some treeNode) (stored : treeNode.continuation = some next)
    (after : automaton.Outside gate root next) : automaton.Outside gate root close := by
  refine .glue ((tree?_of_state? held).trans ?_) (successors_endOf held ends isTree stored)
    (by simpa using after)
  rcases ends with rfl | rfl | rfl <;> rfl

/-- The glue before the element of a lookaround leads to the element. -/
theorem outside_entry {id entry element : StateId} {polarity : Polarity} {direction : Direction}
    (enters : automaton.EntersElement id entry element polarity direction)
    (inside : automaton.Outside gate root element) : automaton.Outside gate root entry := by
  have negated {glue content : StateId}
      (held : automaton.state? glue = some (.negation id content))
      (outside : automaton.Outside gate root content) : automaton.Outside gate root glue :=
    .glue (tree?_of_state? held) (successors_of_own held rfl) (by simpa using outside)
  have backwards {glue content : StateId}
      (held : automaton.state? glue = some (.startOfLookBehind id content))
      (outside : automaton.Outside gate root content) : automaton.Outside gate root glue :=
    .glue (tree?_of_state? held) (successors_of_own held rfl) (by simpa using outside)
  cases polarity with
  | positive =>
    cases direction with
    | ahead => exact enters ▸ inside
    | behind => exact backwards enters inside
  | negative =>
    cases direction with
    | ahead => exact negated enters inside
    | behind =>
      obtain ⟨inner, before, between⟩ := enters
      exact backwards before (negated between inside)

/-! ### What follows the nodes outside -/

section

variable {id next : StateId} {treeNode : TreeNode}
  (unenclosed : automaton.Unenclosed gate root id) (apart : ¬ gate id)
  (isTree : automaton.tree? id = some treeNode) (continues : automaton.Continues id treeNode next)
  (after : automaton.Outside gate root next)

include continues after in
/-- The stored continuation is outside if what follows the node is. -/
theorem outside_continuation {stored : StateId}
    (continuation : treeNode.continuation = some stored) : automaton.Outside gate root stored := by
  unfold Continues at continues
  split at continues
  · obtain ⟨close, same, held⟩ := continues
    cases continuation.symm.trans same
    exact outside_endOfRepetition held after
  · cases continuation.symm.trans continues
    exact after

include unenclosed apart isTree

theorem outside_child {child : StateId} (member : child ∈ treeNode.node.children) :
    automaton.Outside gate root child :=
  .node (unenclosed.tail ⟨apart, treeNode, isTree, member⟩)

include after

include continues in
theorem SealedJoints.exists_outside
    (joints : automaton.SealedJoints automaton.FollowedBy id treeNode.node) {child : StateId}
    (member : child ∈ treeNode.node.sealedChildren) :
    ∃ following, automaton.FollowedBy child following ∧ automaton.Outside gate root following := by
  have named {child : StateId} : child ∈ treeNode.node.children →
      automaton.Outside gate root child := outside_child unenclosed apart isTree
  cases content : treeNode.node with
  | sequence items =>
    rw [content] at joints member named
    rw [Node.sealedChildren, ← map_node_chain] at member
    obtain ⟨link, inChain, rfl⟩ := List.mem_map.mp member
    exact ⟨link.next, joints link inChain, named (Link.next_mem_of_mem_chain inChain)⟩
  | capturingGroup body name number =>
    rw [Continues, content] at continues
    rw [content] at joints member
    obtain ⟨close, followed, held⟩ := joints
    exact ⟨close, List.mem_singleton.mp member ▸ followed,
      outside_end held (by simp) isTree continues after⟩
  | lookAround body polarity direction entry =>
    rw [Continues, content] at continues
    rw [content] at joints member
    obtain ⟨close, followed, held⟩ := joints
    exact ⟨close, List.mem_singleton.mp member ▸ followed,
      outside_end held (by simp) isTree continues after⟩
  | conditional condition yes bar no =>
    rw [Continues, content] at continues
    rw [content] at joints member
    obtain ⟨close, followed, others, held⟩ := joints
    refine ⟨close, ?_, outside_end held (by simp) isTree continues after⟩
    rcases List.mem_cons.mp member with same | other
    · exact same ▸ followed
    · exact others child (Option.mem_toList.mp other)
  | _ =>
    rw [content] at member
    cases member

theorem OpenJoints.exists_outside
    (joints : automaton.OpenJoints automaton.FollowedBy id next treeNode) {child : StateId}
    (member : child ∈ treeNode.node.openChildren) :
    ∃ following, automaton.FollowedBy child following ∧ automaton.Outside gate root following := by
  have named {child : StateId} : child ∈ treeNode.node.children →
      automaton.Outside gate root child := outside_child unenclosed apart isTree
  have here : automaton.Outside gate root id := .node unenclosed
  unfold OpenJoints at joints
  cases content : treeNode.node with
  | sequence items =>
    simp only [content] at joints member
    exact ⟨next, joints child (Option.mem_toList.mp member), after⟩
  | disjunction alternatives bars =>
    simp only [content] at joints member
    exact ⟨next, joints child member, after⟩
  | nonCapturingGroup body enabled disabled =>
    simp only [content, Node.openChildren, Option.mem_toList, Option.mem_def,
      Option.map_eq_some_iff] at joints member
    obtain ⟨inner, held, rfl⟩ := member
    exact ⟨next, joints inner held, after⟩
  | atomicGroup body =>
    simp only [content] at joints member
    exact ⟨next, List.mem_singleton.mp member ▸ joints, after⟩
  | repetition element quantifier =>
    simp only [content] at joints member
    obtain rfl := List.mem_singleton.mp member
    obtain ⟨close, -, held, joint⟩ := joints
    have closing := outside_endOfRepetition held after
    unfold RepetitionJoint at joint
    split at joint
    · exact ⟨close, joint, closing⟩
    · split at joint
      · obtain ⟨branch, followed, heldBranch⟩ := joint
        refine ⟨branch, followed, outside_branch heldBranch ?_⟩
        cases quantifier.isReluctant
        · simpa using ⟨here, closing⟩
        · simpa using ⟨closing, here⟩
      · exact ⟨id, joint, here⟩
  | conditional condition yes bar no =>
    rw [content, Node.children] at named
    simp only [content] at joints member
    obtain ⟨branch, followed, held⟩ := joints
    refine ⟨branch, List.mem_singleton.mp member ▸ followed, outside_branch held ?_⟩
    cases no with
    | none => simpa using ⟨named (by simp), after⟩
    | some other => simpa using ⟨named (by simp), named (by simp)⟩
  | _ =>
    rw [content] at member
    cases member

end

section

variable (jointed : automaton.Jointed [])

include jointed

/-- What follows a child is outside if the parent and what follows the parent are. -/
theorem outside_of_followedBy_child {id next child following : StateId}
    (unenclosed : automaton.Unenclosed gate root id) (apart : ¬ gate id)
    (followed : automaton.FollowedBy id next) (after : automaton.Outside gate root next)
    (named : automaton.Child id child) (childFollowed : automaton.FollowedBy child following) :
    automaton.Outside gate root following := by
  obtain ⟨treeNode, isTree, continues⟩ := followed
  obtain ⟨same, isTreeToo, member⟩ := named
  cases isTree.symm.trans isTreeToo
  have sealedJoints := (jointed.sealedAt isTree).mono (.refl _) Promised.followedBy
  have openJoints := (jointed.openAt isTree continues).mono (.refl _) Promised.followedBy
  obtain ⟨other, followedToo, outside⟩ : ∃ following, automaton.FollowedBy child following ∧
      automaton.Outside gate root following := by
    rcases List.mem_append.mp
      (treeNode.node.sealedChildren_append_openChildren.mem_iff.mpr member) with early | late
    · exact sealedJoints.exists_outside unenclosed apart isTree continues after early
    · exact openJoints.exists_outside unenclosed apart isTree after late
  exact followedToo.unique childFollowed ▸ outside

variable {final : StateId} (rootFollowed : automaton.FollowedBy root final)
  (finalHeld : ∃ flags, automaton.state? final = some (.final flags))

include rootFollowed finalHeld

/-- What follows a node that is not enclosed is outside. -/
theorem Unenclosed.outside_next {id next : StateId}
    (unenclosed : automaton.Unenclosed gate root id) (followed : automaton.FollowedBy id next) :
    automaton.Outside gate root next := by
  induction unenclosed generalizing next with
  | refl =>
    obtain ⟨flags, held⟩ := finalHeld
    obtain rfl := rootFollowed.unique followed
    exact .glue (tree?_of_state? held) (successors_of_final held) (by simp)
  | @tail parent child before step inductionHypothesis =>
    obtain ⟨parentNext, parentFollowed⟩ :=
      jointed.followedBy_below rootFollowed (Unenclosed.below before)
    exact outside_of_followedBy_child jointed before step.1 parentFollowed
      (inductionHypothesis parentFollowed) step.2 followed

/-- What is outside, and not a gate, can be left, and only to the outside. -/
theorem Outside.onward {id : StateId} (outside : automaton.Outside gate root id)
    (apart : ¬ gate id) :
    ∃ nexts, automaton.successors id = .ok nexts ∧
      ∀ next ∈ nexts, automaton.Outside gate root next := by
  cases outside with
  | glue isGlue offered onward => exact ⟨_, offered, onward⟩
  | node unenclosed =>
    obtain ⟨next, followed⟩ := jointed.followedBy_below rootFollowed unenclosed.below
    have after := unenclosed.outside_next jointed rootFollowed finalHeld followed
    obtain ⟨treeNode, isTree, continues⟩ := followed
    obtain ⟨stored, continuation⟩ := Option.isSome_iff_exists.mp continues.isLinked
    obtain ⟨nexts, offered, choices⟩ := TreeNode.exists_successors continuation
    refine ⟨nexts, (successors_of_tree? isTree).trans offered, fun choice member => ?_⟩
    have named {child : StateId} : child ∈ treeNode.node.children →
        automaton.Outside gate root child := outside_child unenclosed apart isTree
    rcases choices choice member with child | rfl | ⟨body, polarity, direction, content⟩
    · exact named child
    · exact outside_continuation continues after continuation
    · have entered := jointed.enteredAt isTree
      rw [content] at entered named
      exact outside_entry entered (named (by simp))

end

end

end Automaton

/-! ### Finished patterns -/

namespace Pattern.Sound

variable {pattern : Pattern} (sound : pattern.Sound) {gate : StateId → Prop} {id goal : StateId}

include sound

theorem outside_start : pattern.automaton.Outside gate pattern.root pattern.start := by
  obtain ⟨flags, held⟩ := sound.startHeld
  refine .glue (Automaton.tree?_of_state? held) (Automaton.successors_of_own held rfl) ?_
  simpa using .node .refl

/-- Every move from the outside, but from a gate, stays there. -/
theorem outside_of_moves (outside : pattern.automaton.Outside gate pattern.root id)
    (apart : ¬ gate id) {next : StateId} (moves : pattern.automaton.Moves id next) :
    pattern.automaton.Outside gate pattern.root next := by
  obtain ⟨nexts, offered, onward⟩ :=
    outside.onward sound.jointed sound.followed sound.finalHeld apart
  obtain ⟨found, offeredToo, member⟩ := moves
  cases offered.symm.trans offeredToo
  exact onward next member

/-- Without gates everything that can be reached from the outside is outside. -/
theorem outside_of_reaches (outside : pattern.automaton.Outside (fun _ => False) pattern.root id)
    (reaches : pattern.automaton.Reaches id goal) :
    pattern.automaton.Outside (fun _ => False) pattern.root goal := by
  induction reaches with
  | refl => exact outside
  | tail _ moves inductionHypothesis =>
    exact sound.outside_of_moves inductionHypothesis not_false moves

/-- Everything that can be reached from a node or the start is linked. -/
theorem linkedFrom (outside : pattern.automaton.Outside (fun _ => False) pattern.root id) :
    pattern.automaton.LinkedFrom id := by
  intro other reaches
  obtain ⟨nexts, offered, -⟩ := (sound.outside_of_reaches outside reaches).onward sound.jointed
    sound.followed sound.finalHeld not_false
  exact ⟨nexts, offered⟩

/-- A path from the outside into what is enclosed passes a gate. -/
theorem exists_gate (outside : pattern.automaton.Outside gate pattern.root id)
    (enclosed : ¬ pattern.automaton.Outside gate pattern.root goal)
    (reaches : pattern.automaton.Reaches id goal) :
    ∃ owner, gate owner ∧ pattern.automaton.Reaches id owner ∧
      pattern.automaton.Reaches owner goal := by
  induction reaches using ReflTransGen.head_induction_on with
  | refl => exact absurd outside enclosed
  | @head id next moves rest inductionHypothesis =>
    by_cases isGate : gate id
    · exact ⟨id, isGate, .refl, .head moves rest⟩
    · obtain ⟨owner, isOwner, before, behind⟩ :=
        inductionHypothesis (sound.outside_of_moves outside isGate moves)
      exact ⟨owner, isOwner, .head moves before, behind⟩

/-- A node below a gate is enclosed. -/
theorem not_outside {owner : StateId} (isGate : gate owner)
    (below : pattern.automaton.Below pattern.root owner)
    (inside : TransGen pattern.automaton.Child owner id) :
    ¬ pattern.automaton.Outside gate pattern.root id := by
  obtain ⟨treeNode, isTree⟩ := sound.isTree.exists_tree (below.trans inside.to_reflTransGen)
  intro outside
  cases outside with
  | node unenclosed => exact unenclosed.not_transGen_child sound.isTree isGate below inside
  | glue isGlue _ _ => cases isTree.symm.trans isGlue

end Pattern.Sound

end PatternGraph
