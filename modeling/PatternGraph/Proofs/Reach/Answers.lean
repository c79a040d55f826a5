/-
This file proves that every question about a finished pattern has an answer. The arena may hold more
than the pattern, nodes that were built and never linked, and children that do not exist. But the
inner states, the start, the nodes below the root and the glue of these nodes, lead to each other
and to the final state only. That is what `Outside` says if there are no gates: a node below the
root, or glue that leads to such states.

For the glue this rests on its owner. Whatever glue belongs to a node below the root leads to the
node itself, to one of its children or to its continuation, because these are the states that the
owner dictates.

A state that can be reached then has successors, so each of the walks goes on until it comes to its
answer; the other questions about the state ask for a stored continuation or for the owner, and both
are there.
-/

import PatternGraph.Proofs.Enclosure
import PatternGraph.Proofs.Passage
import PatternGraph.Proofs.Reach.Sweep

namespace PatternGraph

/-! ### Questions about one state -/

namespace Automaton

/-- The state exists, and every question about it has an answer. -/
structure Readable (automaton : Automaton) (id : StateId) : Prop where
  exists_state : ∃ state, automaton.state id = .ok state
  exists_continuation : ∃ next, automaton.continuation id = .ok next
  exists_successors : ∃ nexts, automaton.successors id = .ok nexts
  exists_transition : ∃ transition, automaton.transition id = .ok transition
  exists_flags : ∃ flags, automaton.flags id = .ok flags

section

variable {automaton : Automaton} {id : StateId} {state : State}
  (found : automaton.state? id = some state)

include found

/-- Glue has the flags of its owner, and the start and the final state have their own. -/
theorem exists_flags_of_joined (joined : automaton.Joined id state) :
    ∃ flags, automaton.flags id = .ok flags := by
  have borrowed {owner : StateId} (owned : state.owner? = some owner) :
      ∃ flags, automaton.flags id = .ok flags := by
    obtain ⟨treeNode, isTree, -⟩ := joined owner owned
    exact ⟨treeNode.flags, (flags_of_owner? found owned isTree).trans (flags_of_tree? isTree)⟩
  cases state with
  | tree treeNode => exact ⟨treeNode.flags, flags_of_tree? (tree?_eq_some_iff.mpr found)⟩
  | start _ flags => exact ⟨flags, flags_of_start found⟩
  | final flags => exact ⟨flags, flags_of_final found⟩
  | branch _ _ | endOfRepetition _ _ | endOfCapturingGroup _ | endOfLookaround _
  | negation _ _ | startOfLookBehind _ _ | endOfConditional _ => exact borrowed rfl

/-- A branch continues with its owner, which is linked, and other glue moves to its continuation. -/
theorem exists_continuation_of_joined (joined : automaton.Joined id state)
    (glue : state.tree? = none) {nexts : List StateId}
    (offered : automaton.successors id = .ok nexts) :
    ∃ next, automaton.continuation id = .ok next := by
  by_cases branch : ∃ owner choices, state = .branch owner choices
  · obtain ⟨owner, choices, rfl⟩ := branch
    obtain ⟨treeNode, isTree, next, stored, -⟩ := joined owner rfl
    exact ⟨some next, (continuation_of_borrows found rfl rfl isTree).trans
      (continuation_of_stored isTree stored)⟩
  · rw [successors_glue found glue fun owner choices same => branch ⟨owner, choices, same⟩]
      at offered
    obtain ⟨next, continues, -⟩ := exists_of_map_eq_ok offered
    exact ⟨next, continues⟩

end

end Automaton

/-! ### A walk with any checker -/

/-- A walk for consumed input has an answer, whatever is in the memory. -/
theorem Checker.exists_answer_walkConsuming {automaton : Automaton} {goal : StateId}
    {checker : Checker} {visited : List StateId} {visits : List Visit}
    (linked : ∀ visit ∈ visits, automaton.LinkedFrom visit.state) :
    ∃ answer, (walkConsuming automaton goal checker visited visits).answer = .ok answer := by
  induction checker, visited, visits using walkConsuming.induct automaton goal with
  | case1 checker visited =>
    rw [walkConsuming]
    exact ⟨false, rfl⟩
  | case2 checker visited visit pending fault refused =>
    obtain ⟨here, -⟩ := List.forall_mem_cons.mp linked
    obtain ⟨state, found⟩ := here.exists_state .refl
    cases refused.symm.trans (Automaton.crossing_eq found visited)
  | case3 checker visited visit pending blocked inductionHypothesis =>
    obtain ⟨-, later⟩ := List.forall_mem_cons.mp linked
    rw [walkConsuming_blocked blocked]
    exact inductionHypothesis later
  | case4 checker visited visit pending consumes reached no inductionHypothesis =>
    obtain ⟨-, later⟩ := List.forall_mem_cons.mp linked
    rw [walkConsuming_refused consumes no]
    exact inductionHypothesis later
  | case5 checker visited visit pending consumes reached other =>
    obtain ⟨here, -⟩ := List.forall_mem_cons.mp linked
    rw [walkConsuming_answered consumes other]
    exact (Checker.concluded_canReach here).answered
  | case6 checker visited visit pending free stops inductionHypothesis =>
    obtain ⟨-, later⟩ := List.forall_mem_cons.mp linked
    rw [walkConsuming_stops free (by simpa using stops)]
    exact inductionHypothesis later
  | case7 checker visited visit pending free goesOn fault failed =>
    obtain ⟨here, -⟩ := List.forall_mem_cons.mp linked
    obtain ⟨nexts, offered⟩ := here _ .refl
    obtain ⟨visits, found⟩ := Automaton.exists_visitsPast offered
    cases failed.symm.trans found
  | case8 checker visited visit pending free goesOn nexts found inductionHypothesis =>
    obtain ⟨here, later⟩ := List.forall_mem_cons.mp linked
    obtain ⟨other, unseen⟩ : visit.state ≠ goal ∧ visit.state ∉ visited := by simpa using goesOn
    rw [walkConsuming_enters free other unseen found]
    refine inductionHypothesis fun further member => ?_
    rcases List.mem_append.mp member with new | old
    · exact here.moves (Automaton.moves_of_visitsPast found new)
    · exact later further old

namespace Automaton

/-- Every query that starts at the state has an answer, whatever the goal and the checker. -/
structure AnswersFrom (automaton : Automaton) (start : StateId) : Prop where
  canReach (checker : Checker) (goal : StateId) :
    ∃ answer, (checker.canReach automaton start goal).answer = .ok answer
  canReachConsuming (checker : Checker) (goal : StateId) :
    ∃ answer, (checker.canReachConsuming automaton start goal).answer = .ok answer
  canReachWithoutConsuming (goal : StateId) :
    ∃ answer, automaton.canReachWithoutConsuming start goal = .ok answer
  canReachWithoutConsumingNorCrossingBoundaries (goal : StateId) :
    ∃ answer, automaton.canReachWithoutConsumingNorCrossingBoundaries start goal = .ok answer
  isAnchoredAtEnd : ∃ answer, automaton.isAnchoredAtEnd start = .ok answer
  onlyMatchesEmptySuffix : ∃ answer, automaton.onlyMatchesEmptySuffix start = .ok answer

theorem LinkedFrom.answersFrom {automaton : Automaton} {start : StateId}
    (linked : automaton.LinkedFrom start) : automaton.AnswersFrom start where
  canReach _ _ := (Checker.concluded_canReach linked).answered
  canReachConsuming _ _ :=
    Checker.exists_answer_walkConsuming fun _ member => List.mem_singleton.mp member ▸ linked
  canReachWithoutConsuming goal :=
    (answersBetween_canReachWithoutConsuming linked goal).imp fun _ => And.left
  canReachWithoutConsumingNorCrossingBoundaries goal :=
    (answersBetween_canReachNorCrossing linked goal).imp fun _ => And.left
  isAnchoredAtEnd := (exists_isAnchoredAtEnd linked).imp fun _ => And.left
  onlyMatchesEmptySuffix := (exists_onlyMatchesEmptySuffix linked).imp fun _ => And.left

end Automaton

/-! ### Inner states -/

namespace Pattern

variable {pattern : Pattern} (finished : pattern.Finished) {id : StateId}

include finished

/-- The glue of a node below the root leads to the node, to its children or to its continuation. -/
theorem outside_glue {owner : StateId} {state : State}
    (found : pattern.automaton.state? id = some state) (owned : state.owner? = some owner)
    (below : pattern.automaton.Below pattern.root owner) :
    pattern.automaton.Outside (fun _ => False) pattern.root id := by
  have sound := finished.sound
  have unenclosed : pattern.automaton.Unenclosed (fun _ => False) pattern.root owner :=
    Automaton.unenclosed_of_below below fun _ isGate => isGate.elim
  obtain ⟨next, followed⟩ := sound.followedBy_below below
  have after := unenclosed.outside_next sound.jointed sound.followed sound.finalHeld followed
  obtain ⟨treeNode, isTree, continues⟩ := followed
  obtain ⟨stored, continuation⟩ := Option.isSome_iff_exists.mp continues.isLinked
  have behind := Automaton.outside_continuation continues after continuation
  have inside {child : StateId} : child ∈ treeNode.node.children →
      pattern.automaton.Outside (fun _ => False) pattern.root child :=
    Automaton.outside_child unenclosed not_false isTree
  obtain ⟨same, isTreeToo, joins⟩ := finished.glueOwned found owner owned
  cases isTree.symm.trans isTreeToo
  cases state with
  | tree _ | start _ _ | final _ => cases owned
  | branch _ choices =>
    cases owned
    obtain ⟨_, continuationToo, chooses⟩ := joins
    cases continuation.symm.trans continuationToo
    refine Automaton.outside_branch found fun choice member => ?_
    rcases chooses.mem member with rfl | rfl | child
    · exact .node unenclosed
    · exact behind
    · exact inside child
  | endOfRepetition _ _ => exact Automaton.outside_continuation continues after joins.1
  | endOfCapturingGroup _ | endOfLookaround _ | endOfConditional _ =>
    cases owned
    exact Automaton.outside_end found (by simp) isTree continuation behind
  | negation _ content =>
    obtain ⟨body, direction, entry, isLookAround, rfl⟩ := joins
    refine .glue (Automaton.tree?_of_state? found) (Automaton.successors_of_own found rfl) ?_
    simpa using inside (by simp [isLookAround])
  | startOfLookBehind _ content =>
    obtain ⟨body, polarity, isLookAround⟩ := joins
    have entered := sound.jointed.enteredAt isTree
    rw [isLookAround] at entered
    exact Automaton.outside_entry entered (inside (by simp [isLookAround]))

/-- Without gates every inner state is outside. -/
theorem Inner.outside (inner : pattern.Inner id) :
    pattern.automaton.Outside (fun _ => False) pattern.root id := by
  cases inner with
  | start => exact finished.sound.outside_start
  | node below => exact .node (Automaton.unenclosed_of_below below fun _ isGate => isGate.elim)
  | glue found owned below => exact outside_glue finished found owned below

/-- A state that is outside has everything that a question may ask for. -/
theorem readable_of_outside
    (outside : pattern.automaton.Outside (fun _ => False) pattern.root id) :
    pattern.automaton.Readable id := by
  have sound := finished.sound
  obtain ⟨nexts, offered, -⟩ :=
    outside.onward sound.jointed sound.followed sound.finalHeld not_false
  obtain ⟨state, exists_state⟩ := Automaton.exists_state_of_successors offered
  have found := Automaton.state_eq_ok_iff.mp exists_state
  have joined := finished.glueOwned found
  refine
    { exists_state := ⟨state, exists_state⟩
      exists_continuation := ?_
      exists_successors := ⟨nexts, offered⟩
      exists_transition := ⟨_, Automaton.transition_of_state? found⟩
      exists_flags := Automaton.exists_flags_of_joined found joined }
  cases outside with
  | node unenclosed =>
    obtain ⟨next, treeNode, isTree, continues⟩ := sound.followedBy_below unenclosed.below
    obtain ⟨stored, continuation⟩ := Option.isSome_iff_exists.mp continues.isLinked
    exact ⟨some stored, Automaton.continuation_of_stored isTree continuation⟩
  | glue isGlue _ _ =>
    rw [Automaton.tree?_of_state? found] at isGlue
    exact Automaton.exists_continuation_of_joined found joined isGlue offered

end Pattern

/-- Whatever can be reached from an inner state of a finished pattern exists, every question about
it has an answer, and so has every query that starts at the inner state. -/
theorem queries_answered {pattern : Pattern} (finished : pattern.Finished) {id : StateId}
    (inner : pattern.Inner id) :
    (∀ other, pattern.automaton.Reaches id other → pattern.automaton.Readable other) ∧
      pattern.automaton.AnswersFrom id := by
  have outside := inner.outside finished
  have sound := finished.sound
  exact ⟨fun other reaches =>
      Pattern.readable_of_outside finished (sound.outside_of_reaches outside reaches),
    (sound.linkedFrom outside).answersFrom⟩

/-- The calls that build `(?<!a)b` and besides it a repetition of nothing, which is never linked. -/
def orphanCalls : List Call :=
  [.construct ⟨⟨4, 5⟩, .empty, .leaf (.character ⟨97, false⟩)⟩,
    .construct ⟨⟨0, 6⟩, .empty, .lookAround .negative .behind ⟨0⟩⟩,
    .construct ⟨⟨6, 7⟩, .empty, .leaf (.character ⟨98, false⟩)⟩,
    .construct ⟨⟨6, 7⟩, .empty, .repetition ⟨99⟩ ⟨⟨6, 7⟩, .greedy, .sign .star⟩⟩,
    .construct ⟨⟨0, 7⟩, .empty, .sequence [⟨3⟩, ⟨5⟩]⟩]

/-- The pattern `(?<!a)b`, with a repetition of nothing in its arena. -/
def orphanPattern? : Option Pattern :=
  finishedPattern? ⟨"(?<!a)b", .java, []⟩ orphanCalls ⟨7⟩ .empty

/-- The way into the lookbehind of `(?<!a)b` is an inner state, and the repetition is not in its
way, although nothing can be asked about it. -/
theorem orphan_queries_answered :
    ∃ pattern, orphanPattern? = some pattern ∧ pattern.Inner ⟨2⟩ ∧
      (∀ nexts, pattern.automaton.successors ⟨6⟩ ≠ .ok nexts) ∧
      (∀ other, pattern.automaton.Reaches ⟨2⟩ other → pattern.automaton.Readable other) ∧
      pattern.automaton.AnswersFrom ⟨2⟩ := by
  have computed : (orphanPattern?.map fun pattern =>
      (decide (pattern.automaton.Child pattern.root ⟨3⟩),
        (pattern.automaton.state? ⟨2⟩).map State.owner?, pattern.automaton.successors ⟨6⟩)) =
      some (true, some (some ⟨3⟩), .error .openEnd) := by decide +kernel
  obtain ⟨pattern, built, facts⟩ := Option.map_eq_some_iff.mp computed
  obtain ⟨named, others⟩ := Prod.mk.inj facts
  obtain ⟨owner, open_end⟩ := Prod.mk.inj others
  obtain ⟨state, found, owned⟩ := Option.map_eq_some_iff.mp owner
  have inner : pattern.Inner ⟨2⟩ := .glue found owned (.single (decide_eq_true_iff.mp named))
  have refused (nexts : List StateId) : pattern.automaton.successors ⟨6⟩ ≠ .ok nexts := by
    rw [open_end]
    exact nofun
  exact ⟨pattern, built, inner, refused,
    queries_answered (finished_of_finishedPattern? built) inner⟩

end PatternGraph
