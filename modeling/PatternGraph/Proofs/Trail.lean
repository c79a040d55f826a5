/-
This file proves that following continuations comes to an end. The element of a repetition leads
back to the repetition, so successors go round in circles. Continuations do not: the element leads
back, but the repetition itself leads on to its end, and what follows an inner node always lies on
the way to what follows the node around it.

What follows a node is reached from it in one step, or two for a repetition. What follows a child
is what follows its parent, the parent itself, the next child, or glue that stands behind the
children, and all of these lead to what follows the parent. By induction on the depth of a node,
whatever follows it leads to the final state. Continuations are unique, so a state that came twice
would come again and again, and the final state would never come.
-/

import PatternGraph.Proofs.Continuations
import PatternGraph.Proofs.Linking.Targets
import PatternGraph.Proofs.Passage

namespace PatternGraph

/-! ### Targets behind the children -/

/-- Glue that stands behind the children of its owner. -/
def GlueKind.IsExit (kind : GlueKind) : Prop := kind ≠ .negation ∧ kind ≠ .startOfLookBehind

namespace Node

variable {node : Node} {count index : Nat}

/-- Of the children only the next one may follow a child. -/
theorem of_afterChild_eq_child {other : Nat} (target : node.afterChild count index = .child other) :
    other = index + 1 ∧ index + 1 < count := by
  cases node with
  | sequence items =>
    rw [afterChild] at target
    by_cases more : index + 1 < count
    · rw [if_pos more] at target
      cases target
      exact ⟨rfl, more⟩
    · rw [if_neg more] at target
      cases target
  | repetition element quantifier =>
    rw [afterChild] at target
    split_ifs at target
  | conditional condition yes bar no =>
    rw [afterChild] at target
    split_ifs at target
  | _ => cases target

theorem isExit_of_afterChild_eq_glue {kind : GlueKind}
    (target : node.afterChild count index = .glue kind) : kind.IsExit := by
  cases node with
  | sequence items =>
    rw [afterChild] at target
    split_ifs at target
  | capturingGroup body name number | lookAround body polarity direction entry =>
    cases target
    exact ⟨by decide, by decide⟩
  | repetition element quantifier | conditional condition yes bar no =>
    rw [afterChild] at target
    split_ifs at target <;> cases target <;> exact ⟨by decide, by decide⟩
  | _ => cases target

theorem afterGlue_startOfLookBehind (node : Node) :
    node.afterGlue .startOfLookBehind = .glue .negation ∨
      node.afterGlue .startOfLookBehind = .child 0 := by
  cases node with
  | lookAround body polarity direction entry =>
    cases polarity
    · exact .inr rfl
    · exact .inl rfl
  | _ => exact .inr rfl

end Node

namespace Automaton

open Relation

/-! ### Trails -/

/-- One state has the other as its continuation. -/
def ContinuesTo (automaton : Automaton) (id next : StateId) : Prop :=
  automaton.continuation id = .ok (some next)

/-- Following continuations leads from one state to the other. -/
def LeadsTo (automaton : Automaton) (id next : StateId) : Prop :=
  ReflTransGen automaton.ContinuesTo id next

/-- The states that are visited by following continuations from a state for as long as there are
any. -/
inductive Trail (automaton : Automaton) : StateId → List StateId → Prop
  | stop {id : StateId} (ends : automaton.continuation id = .ok none) : Trail automaton id [id]
  | step {id next : StateId} {visited : List StateId}
    (continues : automaton.continuation id = .ok (some next))
    (rest : Trail automaton next visited) : Trail automaton id (id :: visited)

namespace Trail

variable {automaton : Automaton} {id : StateId} {visited : List StateId}

theorem unique (trail : automaton.Trail id visited) {others : List StateId}
    (other : automaton.Trail id others) : visited = others := by
  induction trail generalizing others with
  | stop ends =>
    cases other with
    | stop => rfl
    | step continues _ => cases ends.symm.trans continues
  | step continues _ inductionHypothesis =>
    cases other with
    | stop ends => cases ends.symm.trans continues
    | step continuesToo rest =>
      cases continues.symm.trans continuesToo
      rw [inductionHypothesis rest]

/-- A trail goes on from each of its states. -/
theorem exists_from (trail : automaton.Trail id visited) {middle : StateId}
    (member : middle ∈ visited) : ∃ rest, automaton.Trail middle rest ∧ rest <:+ visited := by
  induction trail with
  | stop ends =>
    obtain rfl := List.mem_singleton.mp member
    exact ⟨_, .stop ends, List.suffix_rfl⟩
  | step continues rest inductionHypothesis =>
    rcases List.mem_cons.mp member with rfl | later
    · exact ⟨_, .step continues rest, List.suffix_rfl⟩
    · obtain ⟨left, onward, suffix⟩ := inductionHypothesis later
      exact ⟨left, onward, suffix.trans (List.suffix_cons _ _)⟩

/-- No state is visited twice, since the trail from its second visit would be the one from its first
and shorter than that. -/
theorem nodup (trail : automaton.Trail id visited) : visited.Nodup := by
  induction trail with
  | stop => exact List.nodup_singleton _
  | @step id next visited continues rest inductionHypothesis =>
    refine List.nodup_cons.mpr ⟨fun again => ?_, inductionHypothesis⟩
    obtain ⟨left, back, suffix⟩ := rest.exists_from again
    have same : id :: visited = left := (Trail.step continues rest).unique back
    have shorter := suffix.length_le
    rw [← same, List.length_cons] at shorter
    omega

end Trail

/-- Where the way leads to a state without a continuation, the trail ends there. -/
theorem LeadsTo.exists_trail {automaton : Automaton} {id final : StateId}
    (leads : automaton.LeadsTo id final) (ends : automaton.continuation final = .ok none) :
    ∃ visited, automaton.Trail id visited ∧ visited.getLast? = some final := by
  induction leads using ReflTransGen.head_induction_on with
  | refl => exact ⟨[final], .stop ends, rfl⟩
  | head continues _ inductionHypothesis =>
    obtain ⟨visited, trail, last⟩ := inductionHypothesis
    exact ⟨_, .step continues trail, by rw [List.getLast?_cons, last]; rfl⟩

/-! ### What follows a child leads to what follows its parent -/

section

variable {automaton : Automaton} {id next : StateId} {treeNode : TreeNode}
  (owned : automaton.GlueOwned) (jointed : automaton.Jointed [])
  (isTree : automaton.tree? id = some treeNode)
  (continues : automaton.Continues id treeNode next)

include owned jointed isTree continues

/-- What a node stores as its continuation leads to what follows the node. -/
theorem leadsTo_of_afterSelf {stored : StateId}
    (names : automaton.Names id next treeNode treeNode.node.afterSelf stored) :
    automaton.LeadsTo stored next := by
  cases content : treeNode.node with
  | repetition element quantifier =>
    rw [content] at names
    obtain ⟨named, answers, onward⟩ := names_afterGlue owned jointed isTree continues names
    obtain rfl : named = next := onward
    exact .single answers
  | _ =>
    rw [content] at names
    obtain rfl : stored = next := names
    exact .refl

/-- A node leads to what it is followed by. -/
theorem leadsTo_next : automaton.LeadsTo id next := by
  obtain ⟨stored, held⟩ := Option.isSome_iff_exists.mp continues.isLinked
  have onward := leadsTo_of_afterSelf owned jointed isTree continues (continues.stored held)
  refine .head ?_ onward
  rw [ContinuesTo, continuation_of_continues isTree continues, held]

/-- Glue behind the children of a node leads to what follows the node. -/
theorem leadsTo_of_isExit {kind : GlueKind} {glueId : StateId}
    (listed : automaton.Lists kind (some id) glueId) (exits : kind.IsExit) :
    automaton.LeadsTo glueId next := by
  obtain ⟨named, answers, names⟩ := names_afterGlue owned jointed isTree continues listed
  cases kind with
  | negation => exact absurd rfl exits.1
  | startOfLookBehind => exact absurd rfl exits.2
  | endOfRepetition =>
    obtain rfl : named = next := names
    exact .single answers
  | _ => exact .head answers (leadsTo_of_afterSelf owned jointed isTree continues names)

/-- What follows a child leads to what follows its parent. -/
theorem leadsTo_of_child {index : Nat} {child after : StateId}
    (member : treeNode.node.children[index]? = some child)
    (followed : automaton.FollowedBy child after) : automaton.LeadsTo after next := by
  -- A child that is followed by another one comes before it.
  induction remaining : treeNode.node.children.length - index using Nat.strong_induction_on
    generalizing index child after with
  | _ remaining inductionHypothesis =>
    have names := jointed.names_child isTree continues member followed
    cases target : treeNode.node.afterChild treeNode.node.children.length index with
    | next =>
      rw [target] at names
      obtain rfl : after = next := names
      exact .refl
    | parent =>
      rw [target] at names
      obtain rfl : after = id := names
      exact leadsTo_next owned jointed isTree continues
    | child other =>
      rw [target] at names
      obtain ⟨rfl, inRange⟩ := Node.of_afterChild_eq_child target
      obtain ⟨later, laterNode, laterTree, laterContinues⟩ := jointed.followedBy_child
        ⟨treeNode, isTree, continues⟩ ⟨treeNode, isTree, List.mem_of_getElem? names⟩
      exact (leadsTo_next owned jointed laterTree laterContinues).trans
        (inductionHypothesis _ (by omega) names ⟨laterNode, laterTree, laterContinues⟩ rfl)
    | glue kind =>
      rw [target] at names
      exact leadsTo_of_isExit owned jointed isTree continues names
        (Node.isExit_of_afterChild_eq_glue target)

end

end Automaton

/-! ### Finished patterns -/

namespace Pattern

section

variable {pattern : Pattern} (finished : pattern.Finished)

include finished

/-- Whatever follows a node below the root leads to the final state. -/
theorem exists_follows_below {id : StateId} (below : pattern.automaton.Below pattern.root id) :
    ∃ next, pattern.automaton.FollowedBy id next ∧
      pattern.automaton.LeadsTo next pattern.final := by
  have sound := finished.sound
  induction below with
  | refl => exact ⟨pattern.final, sound.followed, .refl⟩
  | tail above named inductionHypothesis =>
    obtain ⟨next, followed, onward⟩ := inductionHypothesis
    obtain ⟨after, alsoFollowed⟩ := sound.jointed.followedBy_child followed named
    obtain ⟨treeNode, isTree, continues⟩ := followed
    obtain ⟨same, isTreeToo, member⟩ := named
    cases isTree.symm.trans isTreeToo
    obtain ⟨index, member⟩ := List.mem_iff_getElem?.mp member
    exact ⟨after, alsoFollowed, (Automaton.leadsTo_of_child finished.glueOwned sound.jointed
      isTree continues member alsoFollowed).trans onward⟩

theorem leadsTo_of_below {id : StateId} (below : pattern.automaton.Below pattern.root id) :
    pattern.automaton.LeadsTo id pattern.final := by
  obtain ⟨next, ⟨treeNode, isTree, continues⟩, onward⟩ := exists_follows_below finished below
  exact (Automaton.leadsTo_next finished.glueOwned finished.sound.jointed isTree
    continues).trans onward

/-- Glue of a node below the root leads to the final state, by way of the first child if it stands
before the children. -/
theorem leadsTo_of_lists {id owner : StateId} {kind : GlueKind}
    (below : pattern.automaton.Below pattern.root owner)
    (listed : pattern.automaton.Lists kind (some owner) id) :
    pattern.automaton.LeadsTo id pattern.final := by
  have owned := finished.glueOwned
  have jointed := finished.sound.jointed
  obtain ⟨next, ⟨treeNode, isTree, continues⟩, onward⟩ := exists_follows_below finished below
  have enters {child : StateId}
      (names : pattern.automaton.Names owner next treeNode (.child 0) child) :
      pattern.automaton.LeadsTo child pattern.final :=
    leadsTo_of_below finished (below.tail ⟨treeNode, isTree, List.mem_of_getElem? names⟩)
  have negates {negation : StateId}
      (listed : pattern.automaton.Lists .negation (some owner) negation) :
      pattern.automaton.LeadsTo negation pattern.final := by
    obtain ⟨named, answers, names⟩ :=
      Automaton.names_afterGlue owned jointed isTree continues listed
    exact .head answers (enters names)
  cases kind with
  | negation => exact negates listed
  | startOfLookBehind =>
    obtain ⟨named, answers, names⟩ :=
      Automaton.names_afterGlue owned jointed isTree continues listed
    refine .head answers ?_
    rcases treeNode.node.afterGlue_startOfLookBehind with inner | inner
    · rw [inner] at names
      exact negates names
    · rw [inner] at names
      exact enters names
  | _ =>
    have leaves := Automaton.leadsTo_of_isExit owned jointed isTree continues listed
      ⟨by decide, by decide⟩
    exact leaves.trans onward

/-- Following continuations leads from every inner state to the final state. -/
theorem Inner.leadsTo {id : StateId} (inner : pattern.Inner id) :
    pattern.automaton.LeadsTo id pattern.final := by
  cases inner with
  | start =>
    obtain ⟨flags, startHeld⟩ := finished.sound.startHeld
    exact .head (Automaton.continuation_of_own startHeld rfl) (leadsTo_of_below finished .refl)
  | node below => exact leadsTo_of_below finished below
  | glue found owned below =>
    obtain ⟨kind, listed⟩ :=
      Automaton.exists_lists_of_glue found (Automaton.tree?_of_owner? owned)
    exact leadsTo_of_lists finished below (owned ▸ listed)

end

end Pattern

/-- Following continuations from an inner state visits no state twice and ends at the final
state. -/
theorem continuations_end {pattern : Pattern} (finished : pattern.Finished) {id : StateId}
    (inner : pattern.Inner id) :
    ∃ visited, pattern.automaton.Trail id visited ∧ visited.Nodup ∧
      visited.getLast? = some pattern.final := by
  obtain ⟨flags, finalHeld⟩ := finished.sound.finalHeld
  obtain ⟨visited, trail, last⟩ :=
    (inner.leadsTo finished).exists_trail (Automaton.continuation_of_final finalHeld)
  exact ⟨visited, trail, trail.nodup, last⟩

/-- The `b` in `a(b|c)*d` is in the middle of a loop. -/
theorem loop_continuations_end :
    ∃ pattern, loopPattern? = some pattern ∧ pattern.Inner ⟨1⟩ ∧
      ∃ visited, pattern.automaton.Trail ⟨1⟩ visited ∧ visited.Nodup ∧
        visited.getLast? = some pattern.final := by
  have computed : (loopPattern?.map fun pattern => decide
      (pattern.automaton.Child pattern.root ⟨6⟩ ∧ pattern.automaton.Child ⟨6⟩ ⟨4⟩ ∧
        pattern.automaton.Child ⟨4⟩ ⟨3⟩ ∧ pattern.automaton.Child ⟨3⟩ ⟨1⟩)) = some true := by
    decide +kernel
  obtain ⟨pattern, built, named⟩ := Option.map_eq_some_iff.mp computed
  obtain ⟨inSequence, inRepetition, inGroup, inDisjunction⟩ := of_decide_eq_true named
  have below : pattern.automaton.Below pattern.root ⟨1⟩ :=
    .tail (.tail (.tail (.single inSequence) inRepetition) inGroup) inDisjunction
  exact ⟨pattern, built, .node below,
    continuations_end (finished_of_finishedPattern? built) (.node below)⟩

end PatternGraph
