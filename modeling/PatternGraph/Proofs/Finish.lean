/-
This file collects what is known of a finished pattern. Its root is followed by the final state,
everything that had to be linked is linked by the rules, and the account of links is balanced with
the root as the one node that is owed a link from outside the arena.

From there both readings of a finished pattern start: every node below the root is followed by
something, because a linked parent has its children linked, and the child links below the root form
a tree, because no link is claimed twice.
-/

import PatternGraph.Proofs.Linking.Ledger
import PatternGraph.Proofs.Tree

namespace PatternGraph

open Relation

/-- What finishing establishes. -/
structure Pattern.Sound (pattern : Pattern) : Prop where
  jointed : pattern.automaton.Jointed []
  balanced : pattern.automaton.Balanced [pattern.root] []
  followed : pattern.automaton.FollowedBy pattern.root pattern.final
  finalHeld : ∃ flags, pattern.automaton.state? pattern.final = some (.final flags)
  startHeld : ∃ flags, pattern.automaton.state? pattern.start = some (.start pattern.root flags)

namespace Automaton

theorem keepsGlue_linkAll {automaton : Automaton} {links : List Link}
    (linked : (automaton.linkAll links).answer = .ok ()) :
    KeepsGlue automaton (automaton.linkAll links).automaton :=
  linkAll_steps (motive := fun after _ => KeepsGlue automaton after)
    (fun linkable step keeps _ _ found glue =>
      step.toLinkFrame.keepsGlue (linkable_eq_ok_iff.mp linkable).1 (keeps found glue) glue)
    (KeepsGlue.refl automaton) linked

/-- The automaton with a final and a start state, as it is before the root is linked. -/
def framed (automaton : Automaton) (root : StateId) (flags : FlagSet) : Automaton :=
  automaton.pushAll [.final flags, .start root flags]

@[simp]
theorem nextId_push (automaton : Automaton) (state : State) :
    (automaton.push state).nextId = ⟨automaton.size + 1⟩ := by
  rw [nextId, size_push]

/-- What it takes for finishing to succeed, and what it answers. -/
theorem finish_eq_ok_iff {automaton : Automaton} {root : StateId} {flags : FlagSet}
    {pattern : Pattern} :
    (automaton.finish root flags).answer = .ok pattern ↔
      (∃ treeNode, automaton.tree? root = some treeNode) ∧
      let linked := (automaton.framed root flags).linkAll [⟨root, automaton.nextId⟩]
      linked.answer = .ok () ∧
        pattern = ⟨linked.automaton, root, ⟨automaton.size + 1⟩, automaton.nextId⟩ := by
  unfold finish
  cases found : automaton.tree root with
  | error fault =>
    simp only [Outcome.failure, reduceCtorEq, false_iff]
    rintro ⟨⟨treeNode, isTree⟩, -⟩
    rw [tree_eq_ok_iff.mpr isTree] at found
    cases found
  | ok treeNode =>
    have isTree := tree_eq_ok_iff.mp found
    have framed : (automaton.push (.final flags)).push (.start root flags) =
        automaton.framed root flags := rfl
    simp only [isTree, Option.some.injEq, exists_eq', true_and, setContinuation, nextId_push,
      framed]
    cases ((automaton.framed root flags).linkAll [⟨root, automaton.nextId⟩]).answer with
    | error fault => simp
    | ok answer =>
      simp only [Except.ok.injEq, true_and]
      exact eq_comm

/-- Linking keeps the two states that finishing has added. -/
theorem framed_of_finish {automaton : Automaton} {root : StateId} {flags : FlagSet}
    {pattern : Pattern} (finished : (automaton.finish root flags).answer = .ok pattern) :
    pattern.automaton.state? pattern.final = some (.final flags) ∧
      pattern.automaton.state? pattern.start = some (.start pattern.root flags) := by
  obtain ⟨-, linked, rfl⟩ := finish_eq_ok_iff.mp finished
  have keeps := keepsGlue_linkAll linked
  exact ⟨keeps (state?_pushAll_add automaton _ 0) rfl, keeps (state?_pushAll_add automaton _ 1) rfl⟩

/-- Finishing establishes its facts for every automaton that has the invariants of a run. -/
theorem sound_of_finish {automaton : Automaton} (jointed : automaton.Jointed [])
    (balanced : automaton.Balanced [] []) {root : StateId} {flags : FlagSet} {pattern : Pattern}
    (finished : (automaton.finish root flags).answer = .ok pattern) : pattern.Sound := by
  obtain ⟨finalHeld, startHeld⟩ := framed_of_finish finished
  obtain ⟨-, linked, rfl⟩ := finish_eq_ok_iff.mp finished
  have kept {id : StateId} {state : State} (found : automaton.state? id = some state) :
      (automaton.framed root flags).state? id = some state := state?_pushAll_of_some found _
  have new {id : StateId} {state : State}
      (found : (automaton.framed root flags).state? id = some state)
      (absent : automaton.state? id = none) :
      state = .final flags ∨ state = .start root flags := by
    obtain ⟨offset, -, added⟩ := mem_of_state?_pushAll found absent
    simpa using List.mem_of_getElem? added
  have framed : (automaton.framed root flags).Jointed [⟨root, automaton.nextId⟩] := by
    refine jointed.append kept (fun {id owner next} found => ?_) (fun isTree absent => ?_) (by simp)
    · cases was : automaton.state? id with
      | some state => rw [← kept was, found]
      | none => rcases new found was with same | same <;> cases same
    · rcases new (tree?_eq_some_iff.mp isTree) absent with same | same <;> cases same
  have owed : (automaton.framed root flags).Balanced [root] [⟨root, automaton.nextId⟩] := by
    have owing : automaton.Balanced ([] ++ [root]) [⟨root, automaton.nextId⟩] :=
      balanced.owe [⟨root, automaton.nextId⟩]
    refine owing.append rfl fun member => ?_
    simp at member
  exact ⟨framed.linkAll linked, owed.linkAll linked,
    Promised.linkAll (Or.inr (List.mem_singleton_self _)) linked, ⟨flags, finalHeld⟩,
    ⟨flags, startHeld⟩⟩

end Automaton

theorem Pattern.Finished.sound {pattern : Pattern} (finished : pattern.Finished) :
    pattern.Sound := by
  obtain ⟨source, calls, root, flags, ⟨performed, -⟩, ⟨answered, -⟩⟩ := finished
  exact Automaton.sound_of_finish (Automaton.jointed_performAll performed)
    (Automaton.balanced_performAll performed) answered

/-- A finished pattern begins and ends with the same flags. -/
theorem Pattern.Finished.exists_flags {pattern : Pattern} (finished : pattern.Finished) :
    ∃ flags, pattern.automaton.state? pattern.final = some (.final flags) ∧
      pattern.automaton.state? pattern.start = some (.start pattern.root flags) := by
  obtain ⟨source, calls, root, flags, -, ⟨answered, -⟩⟩ := finished
  exact ⟨flags, Automaton.framed_of_finish answered⟩

/-! ### Everything below the root is linked -/

namespace Automaton

section

variable {automaton : Automaton} {follows : StateId → StateId → Prop} {id next : StateId}
  {treeNode : TreeNode}

theorem SealedJoints.exists_follows (joints : automaton.SealedJoints follows id treeNode.node)
    {child : StateId} (member : child ∈ treeNode.node.sealedChildren) :
    ∃ after, follows child after := by
  cases content : treeNode.node with
  | sequence items =>
    rw [content] at joints member
    rw [Node.sealedChildren, ← map_node_chain] at member
    obtain ⟨link, inChain, rfl⟩ := List.mem_map.mp member
    exact ⟨link.next, joints link inChain⟩
  | capturingGroup body name number =>
    rw [content] at joints member
    obtain ⟨close, followed, -⟩ := joints
    exact ⟨close, List.mem_singleton.mp member ▸ followed⟩
  | lookAround body polarity direction entry =>
    rw [content] at joints member
    obtain ⟨close, followed, -⟩ := joints
    exact ⟨close, List.mem_singleton.mp member ▸ followed⟩
  | conditional condition yes bar no =>
    rw [content] at joints member
    obtain ⟨close, followed, others, -⟩ := joints
    rcases List.mem_cons.mp member with same | other
    · exact ⟨close, same ▸ followed⟩
    · exact ⟨close, others child (Option.mem_toList.mp other)⟩
  | _ =>
    rw [content] at member
    cases member

theorem RepetitionJoint.exists_follows {close element : StateId} {quantifier : Quantifier}
    (joint : automaton.RepetitionJoint follows id close element quantifier) :
    ∃ after, follows element after := by
  unfold RepetitionJoint at joint
  split at joint
  · exact ⟨close, joint⟩
  · split at joint
    · obtain ⟨branch, followed, -⟩ := joint
      exact ⟨branch, followed⟩
    · exact ⟨id, joint⟩

theorem OpenJoints.exists_follows (joints : automaton.OpenJoints follows id next treeNode)
    {child : StateId} (member : child ∈ treeNode.node.openChildren) :
    ∃ after, follows child after := by
  unfold OpenJoints at joints
  cases content : treeNode.node with
  | sequence items =>
    simp only [content] at joints member
    exact ⟨next, joints child (Option.mem_toList.mp member)⟩
  | disjunction alternatives bars =>
    simp only [content] at joints member
    exact ⟨next, joints child member⟩
  | nonCapturingGroup body enabled disabled =>
    simp only [content, Node.openChildren, Option.mem_toList, Option.mem_def,
      Option.map_eq_some_iff] at joints member
    obtain ⟨inner, held, rfl⟩ := member
    exact ⟨next, joints inner held⟩
  | atomicGroup body =>
    simp only [content] at joints member
    exact ⟨next, List.mem_singleton.mp member ▸ joints⟩
  | repetition element quantifier =>
    simp only [content] at joints member
    obtain ⟨close, -, -, joint⟩ := joints
    exact List.mem_singleton.mp member ▸ joint.exists_follows
  | conditional condition yes bar no =>
    simp only [content] at joints member
    obtain ⟨branch, followed, -⟩ := joints
    exact ⟨branch, List.mem_singleton.mp member ▸ followed⟩
  | _ =>
    rw [content] at member
    cases member

/-- The children of a linked node are linked. -/
theorem Jointed.followedBy_child (jointed : automaton.Jointed [])
    (followed : automaton.FollowedBy id next) {child : StateId} (named : automaton.Child id child) :
    ∃ after, automaton.FollowedBy child after := by
  obtain ⟨treeNode, isTree, continues⟩ := followed
  obtain ⟨same, isTreeToo, member⟩ := named
  cases isTree.symm.trans isTreeToo
  have promised : ∃ after, automaton.Promised [] child after := by
    rcases List.mem_append.mp
      (treeNode.node.sealedChildren_append_openChildren.mem_iff.mpr member) with inside | outside
    · exact (jointed.sealedAt isTree).exists_follows inside
    · exact (jointed.openAt isTree continues).exists_follows outside
  obtain ⟨after, promise⟩ := promised
  exact ⟨after, promise.followedBy⟩

theorem Jointed.followedBy_below (jointed : automaton.Jointed []) {root : StateId}
    (followed : automaton.FollowedBy root next) (below : automaton.Below root id) :
    ∃ after, automaton.FollowedBy id after := by
  induction below with
  | refl => exact ⟨next, followed⟩
  | tail above named inductionHypothesis =>
    obtain ⟨after, parentFollowed⟩ := inductionHypothesis
    exact jointed.followedBy_child parentFollowed named

end

end Automaton

/-! ### The child links form a tree -/

namespace Pattern.Sound

variable {pattern : Pattern} (sound : pattern.Sound)

include sound

theorem followedBy_below {id : StateId} (below : pattern.automaton.Below pattern.root id) :
    ∃ next, pattern.automaton.FollowedBy id next :=
  sound.jointed.followedBy_below sound.followed below

/-- A node below the root has claimed all its children. -/
theorem claims_of_below {id : StateId} (below : pattern.automaton.Below pattern.root id)
    {treeNode : TreeNode} (isTree : pattern.automaton.tree? id = some treeNode) :
    (State.tree treeNode).claims.Perm treeNode.node.children := by
  obtain ⟨next, same, isTreeToo, continues⟩ := sound.followedBy_below below
  cases isTree.symm.trans isTreeToo
  exact State.claims_perm_children continues.isLinked

theorem isTree : pattern.automaton.IsTree pattern.root := by
  have nodup := sound.balanced.nodup
  have claimsNodup : (pattern.automaton.gather State.claims).Nodup :=
    (List.nodup_append.mp nodup).1
  have claimed {parent child : StateId} (below : pattern.automaton.Below pattern.root parent)
      (named : pattern.automaton.Child parent child) :
      ∃ state, pattern.automaton.state? parent = some state ∧ child ∈ state.claims := by
    obtain ⟨treeNode, isTree, member⟩ := named
    exact ⟨.tree treeNode, Automaton.tree?_eq_some_iff.mp isTree,
      (sound.claims_of_below below isTree).mem_iff.mpr member⟩
  refine Automaton.isTree_of_unique_parent (fun below => ?_) (fun below named => ?_)
    (fun below isTree => ?_) fun below belowToo named namedToo => ?_
  · obtain ⟨next, treeNode, isTree, -⟩ := sound.followedBy_below below
    exact ⟨treeNode, isTree⟩
  · obtain ⟨state, found, member⟩ := claimed below named
    have gathered := (Automaton.mem_gather State.claims).mpr ⟨_, state, found, member⟩
    exact (List.nodup_append.mp nodup).2.2 _ gathered _ (List.mem_singleton_self _) rfl
  · exact (sound.claims_of_below below isTree).nodup_iff.mp
      (Automaton.nodup_of_nodup_gather _ claimsNodup (Automaton.tree?_eq_some_iff.mp isTree))
  · obtain ⟨state, found, member⟩ := claimed below named
    obtain ⟨other, foundToo, memberToo⟩ := claimed belowToo namedToo
    exact Automaton.eq_of_mem_of_nodup_gather _ claimsNodup found foundToo member memberToo

end Pattern.Sound

end PatternGraph
