/-
This file states which state follows each node of a finished pattern. What follows a node is
determined from the root downwards, by one rule for each kind of node: the rules of `SealedJoints`
for the children that were linked when their parent was built, and those of `OpenJoints` for the
children that were linked together with it. Although these links are made at two different times,
and those below a node only when its own continuation arrives, one assignment satisfies all of them
at once, with the final state at the root.
-/

import PatternGraph.Proofs.Finish
import PatternGraph.Proofs.Owners

namespace PatternGraph

namespace Automaton

/-- A linked node answers with the continuation that it stores. -/
theorem continuation_of_continues {automaton : Automaton} {id next : StateId} {treeNode : TreeNode}
    (isTree : automaton.tree? id = some treeNode)
    (continues : automaton.Continues id treeNode next) :
    automaton.continuation id = .ok treeNode.continuation := by
  have linked := continues.isLinked
  unfold TreeNode.isLinked at linked
  obtain ⟨stored, held⟩ := Option.isSome_iff_exists.mp linked
  rw [continuation_of_stored isTree held, held]

end Automaton

/-- What follows each node below the root, as the rule of its parent says, where the final state
follows the root, and the continuation that each of these nodes answers with. -/
structure Pattern.Continuations (pattern : Pattern) (next : StateId → StateId) : Prop where
  root : next pattern.root = pattern.final
  finalHeld : ∃ flags, pattern.automaton.state? pattern.final = some (.final flags)
  below {id : StateId} : pattern.automaton.Below pattern.root id →
    ∃ treeNode, pattern.automaton.tree? id = some treeNode ∧
      pattern.automaton.continuation id = .ok treeNode.continuation ∧
      pattern.automaton.Continues id treeNode (next id) ∧
      pattern.automaton.SealedJoints (fun child after => next child = after) id treeNode.node ∧
      pattern.automaton.OpenJoints (fun child after => next child = after) id (next id) treeNode

/-- Every finished pattern has such an assignment. -/
theorem continuations_by_rule {pattern : Pattern} (finished : pattern.Finished) :
    ∃ next : StateId → StateId, pattern.Continuations next := by
  classical
  have sound := finished.sound
  let next (id : StateId) : StateId :=
    if followed : ∃ after, pattern.automaton.FollowedBy id after then followed.choose else id
  have next_eq {id after : StateId} (followed : pattern.automaton.FollowedBy id after) :
      next id = after := by
    have exists_after : ∃ after, pattern.automaton.FollowedBy id after := ⟨after, followed⟩
    show (if followed : ∃ after, pattern.automaton.FollowedBy id after then followed.choose
      else id) = after
    rw [dif_pos exists_after]
    exact exists_after.choose_spec.unique followed
  refine ⟨next, next_eq sound.followed, sound.finalHeld, fun {id} below => ?_⟩
  obtain ⟨after, treeNode, isTree, continues⟩ := sound.followedBy_below below
  have same : next id = after := next_eq ⟨treeNode, isTree, continues⟩
  refine ⟨treeNode, isTree, Automaton.continuation_of_continues isTree continues,
    same ▸ continues, ?_, ?_⟩
  · exact (sound.jointed.sealedAt isTree).mono (.refl _) fun promise => next_eq promise.followedBy
  · rw [same]
    exact (sound.jointed.openAt isTree continues).mono (.refl _) fun promise =>
      next_eq promise.followedBy

theorem loop_continuations_by_rule :
    ∃ pattern next, loopPattern? = some pattern ∧ pattern.Continuations next := by
  obtain ⟨pattern, built⟩ := exists_loopPattern
  obtain ⟨next, continuations⟩ := continuations_by_rule (finished_of_finishedPattern? built)
  exact ⟨pattern, next, built, continuations⟩

end PatternGraph
