/-
This file proves that twins lead to twins, although the links were made in another order and at
other times.

What a parent names for its child depends on the payload of the parent and on the position of the
child, and both are the same for counterparts. So counterparts are followed by twins, by induction
on the position. The same holds of whatever else a node and its glue lead to, hence twins agree: in
how they are entered, in their flags, in what they continue to and in the order of their successors.
-/

import PatternGraph.Proofs.Renaming.Twins

namespace PatternGraph

/-! ### What follows counterparts -/

namespace Pattern

section

variable {first second : Pattern}

/-- What counterparts name in the same way are twins. -/
theorem Counterparts.twins_of_names {id twin next other state otherState : StateId}
    {treeNode otherNode : TreeNode} (counterparts : first.Counterparts second id twin)
    (isTree : first.automaton.tree? id = some treeNode)
    (alsoTree : second.automaton.tree? twin = some otherNode)
    (twins : first.Twins second next other) {target : Target}
    (names : first.automaton.Names id next treeNode target state)
    (alsoNames : second.automaton.Names twin other otherNode target otherState) :
    first.Twins second state otherState := by
  cases target with
  | next =>
    obtain rfl : state = next := names
    obtain rfl : otherState = other := alsoNames
    exact twins
  | parent =>
    obtain rfl : state = id := names
    obtain rfl : otherState = twin := alsoNames
    exact .node counterparts
  | child index => exact .node (.child counterparts isTree alsoTree names alsoNames)
  | glue kind => exact .glue (.some counterparts) names alsoNames

/-- What is known of counterparts: the nodes are the same, their children are counterparts, and what
follows them are twins. -/
structure Matches (first second : Pattern) (id twin : StateId) (treeNode otherNode : TreeNode)
    (next other : StateId) : Prop where
  counterparts : first.Counterparts second id twin
  isTree : first.automaton.tree? id = some treeNode
  alsoTree : second.automaton.tree? twin = some otherNode
  same : treeNode.SameAs otherNode
  children : List.Forall₂ (first.Counterparts second) treeNode.node.children otherNode.node.children
  continues : first.automaton.Continues id treeNode next
  alsoContinues : second.automaton.Continues twin otherNode other
  twins : first.Twins second next other

/-- What two states lead to: twins in the same order. -/
structure LeadAlike (first second : Pattern) (id twin : StateId) : Prop where
  continuation : ∃ next other, first.automaton.continuation id = .ok next ∧
    second.automaton.continuation twin = .ok other ∧ Option.Rel (first.Twins second) next other
  successors : ∃ nexts others, first.automaton.successors id = .ok nexts ∧
    second.automaton.successors twin = .ok others ∧ List.Forall₂ (first.Twins second) nexts others

/-- States of counterparts that lead to the same targets lead to twins. -/
theorem Matches.leadAlike {id twin next other state otherState : StateId}
    {treeNode otherNode : TreeNode}
    (matched : first.Matches second id twin treeNode otherNode next other) {after : Target}
    {offers : List Target} (directs : first.automaton.Directs id next treeNode state after offers)
    (alsoDirects : second.automaton.Directs twin other otherNode otherState after offers) :
    first.LeadAlike second state otherState := by
  have twins {target : Target} {named alsoNamed : StateId}
      (names : first.automaton.Names id next treeNode target named)
      (alsoNames : second.automaton.Names twin other otherNode target alsoNamed) :
      first.Twins second named alsoNamed :=
    matched.counterparts.twins_of_names matched.isTree matched.alsoTree matched.twins names
      alsoNames
  obtain ⟨⟨named, answers, names⟩, nexts, moves, offered⟩ := directs
  obtain ⟨⟨alsoNamed, alsoAnswers, alsoNames⟩, others, alsoMoves, alsoOffered⟩ := alsoDirects
  refine ⟨⟨_, _, answers, alsoAnswers, .some (twins names alsoNames)⟩, _, _, moves, alsoMoves, ?_⟩
  clear moves alsoMoves
  induction offered generalizing others with
  | nil =>
    cases alsoOffered
    exact .nil
  | cons names _ inductionHypothesis =>
    cases alsoOffered with
    | cons alsoNames alsoRest =>
      exact .cons (twins names alsoNames) (inductionHypothesis _ alsoRest)

namespace Rebuilt

variable (rebuilt : first.Rebuilt second)

include rebuilt

theorem twins_start : first.Twins second first.start second.start := by
  obtain ⟨flags, held⟩ := rebuilt.finished.sound.startHeld
  obtain ⟨alsoFlags, alsoHeld⟩ := rebuilt.alsoFinished.sound.startHeld
  exact .glue .none ⟨_, held, rfl⟩ ⟨_, alsoHeld, rfl⟩

theorem twins_final : first.Twins second first.final second.final := by
  obtain ⟨flags, held⟩ := rebuilt.finished.sound.finalHeld
  obtain ⟨alsoFlags, alsoHeld⟩ := rebuilt.alsoFinished.sound.finalHeld
  exact .glue .none ⟨_, held, rfl⟩ ⟨_, alsoHeld, rfl⟩

/-- Counterparts are followed by twins. -/
theorem twins_of_followedBy {id twin : StateId} (counterparts : first.Counterparts second id twin)
    {next other : StateId} (followed : first.automaton.FollowedBy id next)
    (alsoFollowed : second.automaton.FollowedBy twin other) : first.Twins second next other := by
  have sound := rebuilt.finished.sound
  have alsoSound := rebuilt.alsoFinished.sound
  induction counterparts generalizing next other with
  | root =>
    rw [followed.unique sound.followed, alsoFollowed.unique alsoSound.followed]
    exact rebuilt.twins_final
  | child above isTree alsoTree member alsoMember inductionHypothesis =>
    obtain ⟨_, parentFollowed⟩ := sound.followedBy_below above.inTree
    obtain ⟨_, alsoParentFollowed⟩ := alsoSound.followedBy_below above.symm.inTree
    have twins := inductionHypothesis parentFollowed alsoParentFollowed
    obtain ⟨_, isTreeToo, continues⟩ := parentFollowed
    obtain ⟨_, alsoTreeToo, alsoContinues⟩ := alsoParentFollowed
    cases isTree.symm.trans isTreeToo
    cases alsoTree.symm.trans alsoTreeToo
    obtain ⟨_, _, isTreeAgain, alsoTreeAgain, same, count⟩ := rebuilt.corresponds above
    cases isTree.symm.trans isTreeAgain
    cases alsoTree.symm.trans alsoTreeAgain
    -- Both parents name what follows the child by the same target.
    have names := sound.jointed.names_child isTree continues member followed
    have alsoNames := alsoSound.jointed.names_child alsoTree alsoContinues alsoMember alsoFollowed
    rw [count, same.payload.afterChild] at alsoNames
    exact above.twins_of_names isTree alsoTree twins names alsoNames

theorem exists_matches {id twin : StateId} (counterparts : first.Counterparts second id twin) :
    ∃ treeNode otherNode next other,
      first.Matches second id twin treeNode otherNode next other := by
  obtain ⟨treeNode, otherNode, isTree, alsoTree, same, count⟩ := rebuilt.corresponds counterparts
  obtain ⟨next, followed⟩ := rebuilt.finished.sound.followedBy_below counterparts.inTree
  obtain ⟨other, alsoFollowed⟩ :=
    rebuilt.alsoFinished.sound.followedBy_below counterparts.symm.inTree
  have twins := rebuilt.twins_of_followedBy counterparts followed alsoFollowed
  obtain ⟨_, isTreeToo, continues⟩ := followed
  obtain ⟨_, alsoTreeToo, alsoContinues⟩ := alsoFollowed
  cases isTree.symm.trans isTreeToo
  cases alsoTree.symm.trans alsoTreeToo
  refine ⟨treeNode, otherNode, next, other, counterparts, isTree, alsoTree, same,
    List.forall₂_iff_get.mpr ⟨count.symm, fun index inBounds alsoInBounds => ?_⟩,
    continues, alsoContinues, twins⟩
  exact .child counterparts isTree alsoTree (List.getElem?_eq_getElem inBounds)
    (List.getElem?_eq_getElem alsoInBounds)

/-! ### Where twins lead to -/

/-- Counterparts lead to twins. -/
theorem leadAlike_node {id twin : StateId} (counterparts : first.Counterparts second id twin) :
    first.LeadAlike second id twin := by
  obtain ⟨treeNode, otherNode, next, other, matched⟩ := rebuilt.exists_matches counterparts
  have directs := Automaton.directs_node matched.isTree matched.continues
    (rebuilt.finished.sound.jointed.enteredAt matched.isTree)
  have alsoDirects := Automaton.directs_node matched.alsoTree matched.alsoContinues
    (rebuilt.alsoFinished.sound.jointed.enteredAt matched.alsoTree)
  rw [matched.same.payload.afterSelf, matched.same.payload.offers,
    ← matched.children.length_eq] at alsoDirects
  exact matched.leadAlike directs alsoDirects

/-- Glue of one kind leads to twins if its owners are counterparts. -/
theorem leadAlike_owned {owner otherOwner id twin : StateId} {kind : GlueKind}
    (counterparts : first.Counterparts second owner otherOwner)
    (listed : first.automaton.Lists kind (some owner) id)
    (alsoListed : second.automaton.Lists kind (some otherOwner) twin) :
    first.LeadAlike second id twin := by
  have finished := rebuilt.finished
  have alsoFinished := rebuilt.alsoFinished
  obtain ⟨treeNode, otherNode, next, other, matched⟩ := rebuilt.exists_matches counterparts
  have directs := Automaton.directs_glue finished.stocked (by decide) finished.glueOwned
    finished.sound.jointed matched.isTree matched.continues listed
  have alsoDirects := Automaton.directs_glue alsoFinished.stocked (by decide)
    alsoFinished.glueOwned alsoFinished.sound.jointed matched.alsoTree matched.alsoContinues
    alsoListed
  rw [matched.same.payload.afterGlue, matched.same.payload.glueOffers,
    ← matched.children.length_eq] at alsoDirects
  exact matched.leadAlike directs alsoDirects

/-- Glue without an owner is the start or the final state. -/
theorem start_or_final_of_lists {id twin : StateId} {kind : GlueKind}
    (listed : first.automaton.Lists kind none id)
    (alsoListed : second.automaton.Lists kind none twin) :
    (id = first.start ∧ twin = second.start) ∨ (id = first.final ∧ twin = second.final) := by
  have stocked := rebuilt.finished.stocked
  have alsoStocked := rebuilt.alsoFinished.stocked
  obtain ⟨flags, finalHeld, startHeld⟩ := rebuilt.finished.exists_flags
  obtain ⟨alsoFlags, alsoFinalHeld, alsoStartHeld⟩ := rebuilt.alsoFinished.exists_flags
  have isDue := stocked.mem_glue.mp (Automaton.mem_glue.mpr ⟨id, listed⟩)
  rcases List.mem_pair.mp isDue with rfl | rfl
  · refine .inr ⟨stocked.unique (by decide) listed ⟨_, finalHeld, rfl⟩, ?_⟩
    exact alsoStocked.unique (by decide) alsoListed ⟨_, alsoFinalHeld, rfl⟩
  · refine .inl ⟨stocked.unique (by decide) listed ⟨_, startHeld, rfl⟩, ?_⟩
    exact alsoStocked.unique (by decide) alsoListed ⟨_, alsoStartHeld, rfl⟩

theorem leadAlike_start : first.LeadAlike second first.start second.start := by
  obtain ⟨flags, -, held⟩ := rebuilt.finished.exists_flags
  obtain ⟨alsoFlags, -, alsoHeld⟩ := rebuilt.alsoFinished.exists_flags
  exact ⟨⟨some first.root, some second.root, Automaton.continuation_of_own held rfl,
      Automaton.continuation_of_own alsoHeld rfl, .some (.node .root)⟩,
    [first.root], [second.root], Automaton.successors_of_own held rfl,
    Automaton.successors_of_own alsoHeld rfl, .cons (.node .root) .nil⟩

theorem leadAlike_final : first.LeadAlike second first.final second.final := by
  obtain ⟨flags, held, -⟩ := rebuilt.finished.exists_flags
  obtain ⟨alsoFlags, alsoHeld, -⟩ := rebuilt.alsoFinished.exists_flags
  exact ⟨⟨none, none, Automaton.continuation_of_final held,
      Automaton.continuation_of_final alsoHeld, .none⟩,
    [], [], Automaton.successors_of_final held, Automaton.successors_of_final alsoHeld, .nil⟩

/-- Twins lead to twins, in the same order. -/
theorem leadAlike {id twin : StateId} (twins : first.Twins second id twin) :
    first.LeadAlike second id twin := by
  cases twins with
  | node counterparts => exact rebuilt.leadAlike_node counterparts
  | glue owners listed alsoListed =>
    cases owners with
    | some counterparts => exact rebuilt.leadAlike_owned counterparts listed alsoListed
    | none =>
      rcases rebuilt.start_or_final_of_lists listed alsoListed with ⟨rfl, rfl⟩ | ⟨rfl, rfl⟩
      · exact rebuilt.leadAlike_start
      · exact rebuilt.leadAlike_final

end Rebuilt

end

end Pattern

end PatternGraph
