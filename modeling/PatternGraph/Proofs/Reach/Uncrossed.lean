/-
This file says what a walk finds that neither consumes input nor crosses a boundary. In this form of
the question a path is as good as its moves: every state that it leaves is no boundary, and every
state that it enters is entered freely.

The walk also asks whether a state may be the line break after one of the boundaries it has visited.
But it visits only states that it may leave, and those are no boundaries. So the exemption for line
breaks is never granted: nothing that the walk comes to depends on states beside the path, and what
is certain and what is possible are the same.
-/

import PatternGraph.Proofs.Reach.Unconsuming
import PatternGraph.Proofs.Walk

namespace PatternGraph

open Relation

namespace Automaton

section

variable {automaton : Automaton} {start goal id : StateId}

/-! ### States that may be left -/

theorem isOfKind_boundary {state : State} (found : automaton.state id = .ok state) :
    automaton.isOfKind .boundary id = .ok (automaton.boundary? id).isSome := by
  rw [isOfKind, found, boundary?, tree?_of_state? (state_eq_ok_iff.mp found)]
  cases state with
  | tree treeNode =>
    simp only [Except.map, State.tree?, Option.map_some]
    cases treeNode.node with
    | leaf content => cases content <;> rfl
    | _ => rfl
  | _ => rfl

theorem boundary?_of_canLeave (canLeave : automaton.CanLeave true id) :
    automaton.boundary? id = none := by
  have asked := canLeave rfl
  obtain ⟨state, found, -⟩ := exists_of_map_eq_ok asked
  simpa [isOfKind_boundary found] using asked

/-- Where boundaries are not crossed, the states that may be left are those that are none. -/
theorem canLeave_iff {state : State} (found : automaton.state id = .ok state) :
    automaton.CanLeave true id ↔ automaton.boundary? id = none :=
  ⟨boundary?_of_canLeave, fun none _ => by rw [isOfKind_boundary found, none]; rfl⟩

theorem allowsLineBreak_of_canLeave (canLeave : automaton.CanLeave true id) :
    automaton.allowsLineBreak id = false := by
  rw [allowsLineBreak, boundary?_of_canLeave canLeave]

/-- Where boundaries are not crossed, no line break can follow one. -/
theorem not_meetsBoundary (automaton : Automaton) (start : StateId) :
    ¬ automaton.MeetsBoundary true start := by
  rintro ⟨boundary, -, canLeave, allows⟩
  cases (allowsLineBreak_of_canLeave canLeave).symm.trans allows

/-- Without crossing a boundary the goal is found if free moves lead there, and only then. -/
theorem exists_canReachNorCrossing (linked : automaton.LinkedFrom start) (goal : StateId) :
    ∃ answer, automaton.canReachWithoutConsumingNorCrossingBoundaries start goal = .ok answer ∧
      (answer = true ↔ ReflTransGen (automaton.MovesFreely true) start goal) := by
  obtain ⟨answer, answered, sure, possible⟩ := answersBetween_canReachNorCrossing linked goal
  exact ⟨answer, answered,
    fun yes => freely_of_possible (automaton.not_meetsBoundary start) (possible yes),
    fun path => sure (sure_of_freely path)⟩

/-- Free moves that cross no boundary make up the walks that leave no boundary and enter every state
freely. -/
theorem freely_iff_exists_walk (linked : automaton.LinkedFrom start) :
    ReflTransGen (automaton.MovesFreely true) start goal ↔
      ∃ visited, automaton.Walk start visited goal ∧
        (∀ id ∈ visited.dropLast, automaton.boundary? id = none) ∧
        ∀ id ∈ visited.tail, automaton.EntersFreely id := by
  have leaves {visited : List StateId} (walk : automaton.Walk start visited goal) (id : StateId)
      (member : id ∈ visited.dropLast) :
      automaton.CanLeave true id ↔ automaton.boundary? id = none := by
    obtain ⟨nexts, offered⟩ := linked id (walk.reaches_of_mem (List.mem_of_mem_dropLast member))
    obtain ⟨state, found⟩ := exists_state_of_successors offered
    exact canLeave_iff found
  refine path_iff_exists_walk.trans (exists_congr fun visited => and_congr_right fun walk => ?_)
  exact and_congr_left' (forall₂_congr (leaves walk))

end

/-! ### Where a walk comes along -/

/-- What a walk does with the next visit: the edge cannot be crossed, or the walk stops at the state
behind it, or it goes on from there. Without further visits, or at the goal, it has its answer. -/
inductive WalksOn (automaton : Automaton) (goal : StateId) (stopAtBoundaries : Bool) :
    List StateId × List Visit → List StateId × List Visit → Prop
  | refused {visited : List StateId} {visit : Visit} {pending : List Visit}
    (blocked : automaton.canCross visited visit = .ok false) :
    WalksOn automaton goal stopAtBoundaries (visited, visit :: pending) (visited, pending)
  | stopped {visited : List StateId} {visit : Visit} {pending : List Visit}
    (crosses : automaton.canCross visited visit = .ok true) (other : visit.state ≠ goal)
    (stops : automaton.stopsAt stopAtBoundaries visited visit.state = .ok true) :
    WalksOn automaton goal stopAtBoundaries (visited, visit :: pending) (visited, pending)
  | entered {visited : List StateId} {visit : Visit} {pending : List Visit} {nexts : List StateId}
    (crosses : automaton.canCross visited visit = .ok true) (other : visit.state ≠ goal)
    (goesOn : automaton.stopsAt stopAtBoundaries visited visit.state = .ok false)
    (offered : automaton.successors visit.state = .ok nexts) :
    WalksOn automaton goal stopAtBoundaries (visited, visit :: pending)
      (visit.state :: visited, nexts.map .across ++ pending)

/-- A walk has its answer: no if there is no visit left, and yes if the next visit comes to the
goal. -/
inductive Concludes (automaton : Automaton) (goal : StateId) :
    List StateId × List Visit → Bool → Prop
  | exhausted {visited : List StateId} : Concludes automaton goal (visited, []) false
  | arrived {visited : List StateId} {visit : Visit} {pending : List Visit}
    (crosses : automaton.canCross visited visit = .ok true) (reached : visit.state = goal) :
    Concludes automaton goal (visited, visit :: pending) true

section

variable {automaton : Automaton} {goal : StateId} {stopAtBoundaries : Bool}
  {before after : List StateId × List Visit}

/-- The answer is that of the rest of the walk. -/
theorem WalksOn.answer (step : automaton.WalksOn goal stopAtBoundaries before after) :
    automaton.walkWithoutConsuming goal stopAtBoundaries before.1 before.2 =
      automaton.walkWithoutConsuming goal stopAtBoundaries after.1 after.2 := by
  cases step with
  | refused blocked => exact walkWithoutConsuming_blocked blocked
  | stopped crosses other stops => exact walkWithoutConsuming_stops crosses other stops
  | entered crosses other goesOn offered =>
    exact walkWithoutConsuming_enters crosses other goesOn offered

/-- The walk visits only states that it may leave. -/
theorem WalksOn.canLeave (step : automaton.WalksOn goal stopAtBoundaries before after)
    (held : ∀ id ∈ before.1, automaton.CanLeave stopAtBoundaries id) :
    ∀ id ∈ after.1, automaton.CanLeave stopAtBoundaries id := by
  cases step with
  | refused blocked => exact held
  | stopped crosses other stops => exact held
  | entered crosses other goesOn offered =>
    exact List.forall_mem_cons.mpr ⟨(stopsAt_eq_ok_false goesOn).2, held⟩

theorem answer_of_walksOn (steps : ReflTransGen (automaton.WalksOn goal stopAtBoundaries)
    before after) :
    automaton.walkWithoutConsuming goal stopAtBoundaries before.1 before.2 =
      automaton.walkWithoutConsuming goal stopAtBoundaries after.1 after.2 := by
  induction steps with
  | refl => rfl
  | tail _ step inductionHypothesis => exact inductionHypothesis.trans step.answer

theorem canLeave_of_walksOn (steps : ReflTransGen (automaton.WalksOn goal stopAtBoundaries)
    before after) (held : ∀ id ∈ before.1, automaton.CanLeave stopAtBoundaries id) :
    ∀ id ∈ after.1, automaton.CanLeave stopAtBoundaries id := by
  induction steps with
  | refl => exact held
  | tail _ step inductionHypothesis => exact step.canLeave inductionHypothesis

theorem WalksOn.exists_concludes {answer : Bool}
    (step : automaton.WalksOn goal stopAtBoundaries before after)
    (onward : ∃ last, ReflTransGen (automaton.WalksOn goal stopAtBoundaries) after last ∧
      automaton.Concludes goal last answer) :
    ∃ last, ReflTransGen (automaton.WalksOn goal stopAtBoundaries) before last ∧
      automaton.Concludes goal last answer :=
  onward.imp fun _ => And.imp_left (.head step)

/-- Step by step a walk comes to where it has its answer. -/
theorem exists_concludes {visited : List StateId} {visits : List Visit} {answer : Bool}
    (answered : automaton.walkWithoutConsuming goal stopAtBoundaries visited visits = .ok answer) :
    ∃ last, ReflTransGen (automaton.WalksOn goal stopAtBoundaries) (visited, visits) last ∧
      automaton.Concludes goal last answer := by
  induction visited, visits using walkWithoutConsuming.induct automaton goal stopAtBoundaries with
  | case1 visited =>
    rw [walkWithoutConsuming] at answered
    cases answered
    exact ⟨_, .refl, .exhausted⟩
  | case2 visited visit pending fault refused =>
    rw [walkWithoutConsuming] at answered
    simp [refused] at answered
  | case3 visited visit pending blocked inductionHypothesis =>
    rw [walkWithoutConsuming_blocked blocked] at answered
    exact (WalksOn.refused blocked).exists_concludes (inductionHypothesis answered)
  | case4 visited visit pending crosses reached =>
    cases (walkWithoutConsuming_arrives crosses reached).symm.trans answered
    exact ⟨_, .refl, .arrived crosses reached⟩
  | case5 visited visit pending crosses other fault failed =>
    rw [walkWithoutConsuming] at answered
    simp only [crosses, if_neg other] at answered
    split at answered
    · cases answered
    · rename_i stops
      cases failed.symm.trans stops
    · rename_i goesOn
      cases failed.symm.trans goesOn
  | case6 visited visit pending crosses other stops inductionHypothesis =>
    rw [walkWithoutConsuming_stops crosses other stops] at answered
    exact (WalksOn.stopped crosses other stops).exists_concludes (inductionHypothesis answered)
  | case7 visited visit pending crosses other goesOn fault failed =>
    rw [walkWithoutConsuming] at answered
    simp only [crosses, if_neg other] at answered
    split at answered
    · rename_i failedToo
      cases goesOn.symm.trans failedToo
    · rename_i stops
      cases goesOn.symm.trans stops
    · split at answered
      · cases answered
      · rename_i offered
        cases failed.symm.trans offered
  | case8 visited visit pending crosses other goesOn nexts offered inductionHypothesis =>
    rw [walkWithoutConsuming_enters crosses other goesOn offered] at answered
    exact (WalksOn.entered crosses other goesOn offered).exists_concludes
      (inductionHypothesis answered)

/-- No line break is exempted as long as the visited states may be left without crossing a
boundary. -/
theorem isFinalLineBreak_of_canLeave {visited : List StateId}
    (held : ∀ id ∈ visited, automaton.CanLeave true id) (id : StateId) :
    automaton.isFinalLineBreak visited id = false := by
  have unmet : visited.any automaton.allowsLineBreak = false := by
    refine List.any_eq_false.mpr fun other member => ?_
    simp [allowsLineBreak_of_canLeave (held other member)]
  rw [isFinalLineBreak, unmet, Bool.and_false]

end

end Automaton

/-- Whether the goal can be reached without consuming input and without crossing a boundary is
answered with yes if there is a path of successors that leaves no boundary and enters every state
by an empty step or by the way into a negative lookaround, and only then. Step by step the walk
comes to this answer, and wherever it comes along no line break is exempted. -/
theorem canReachNorCrossing_iff_walk {automaton : Automaton} {start goal : StateId}
    (linked : automaton.LinkedFrom start) :
    ∃ answer, automaton.canReachWithoutConsumingNorCrossingBoundaries start goal = .ok answer ∧
      (answer = true ↔ ∃ visited, automaton.Walk start visited goal ∧
        (∀ id ∈ visited.dropLast, automaton.boundary? id = none) ∧
        ∀ id ∈ visited.tail,
          automaton.transition id = .ok .epsilon ∨ automaton.transition id = .ok .negation) ∧
      (∃ last, ReflTransGen (automaton.WalksOn goal true) ([], [.reached start]) last ∧
        automaton.Concludes goal last answer) ∧
      ∀ visited visits,
        ReflTransGen (automaton.WalksOn goal true) ([], [.reached start]) (visited, visits) →
          automaton.walkWithoutConsuming goal true visited visits = .ok answer ∧
            ∀ id, automaton.isFinalLineBreak visited id = false := by
  obtain ⟨answer, answered, freely⟩ := Automaton.exists_canReachNorCrossing linked goal
  have walk_iff := freely.trans (Automaton.freely_iff_exists_walk linked)
  refine ⟨answer, answered, walk_iff, Automaton.exists_concludes answered, ?_⟩
  intro visited visits steps
  have held := Automaton.canLeave_of_walksOn steps fun id member => absurd member List.not_mem_nil
  exact ⟨(Automaton.answer_of_walksOn steps).symm.trans answered,
    Automaton.isFinalLineBreak_of_canLeave held⟩

/-- In `$??\n` the end of the repetition is reached around the boundary, and the line break behind
it is not. -/
theorem boundaryLate_canReachNorCrossing_iff_walk :
    ∃ pattern, boundaryLate? = some pattern ∧ pattern.automaton.LinkedFrom pattern.start ∧
      (pattern.automaton.canReachWithoutConsumingNorCrossingBoundaries pattern.start ⟨3⟩ =
          .ok true ∧
        ∃ visited, pattern.automaton.Walk pattern.start visited ⟨3⟩ ∧
          (∀ id ∈ visited.dropLast, pattern.automaton.boundary? id = none) ∧
          ∀ id ∈ visited.tail, pattern.automaton.transition id = .ok .epsilon ∨
            pattern.automaton.transition id = .ok .negation) ∧
      pattern.automaton.canReachWithoutConsumingNorCrossingBoundaries pattern.start ⟨2⟩ =
          .ok false ∧
        ∀ visited visits,
          ReflTransGen (pattern.automaton.WalksOn ⟨2⟩ true) ([], [.reached pattern.start])
            (visited, visits) →
          ∀ id, pattern.automaton.isFinalLineBreak visited id = false := by
  have computed : (boundaryLate?.map fun pattern =>
      (pattern.automaton.allLinked && pattern.automaton.ids.contains pattern.start,
        pattern.automaton.canReachWithoutConsumingNorCrossingBoundaries pattern.start ⟨3⟩,
        pattern.automaton.canReachWithoutConsumingNorCrossingBoundaries pattern.start ⟨2⟩)) =
      some (true, .ok true, .ok false) := by decide +kernel
  obtain ⟨pattern, built, facts⟩ := Option.map_eq_some_iff.mp computed
  obtain ⟨checked, answers⟩ := Prod.mk.inj facts
  obtain ⟨yes, no⟩ := Prod.mk.inj answers
  have linked := Automaton.linkedFrom_of_check checked
  obtain ⟨found, answered, found_iff, -⟩ :=
    @canReachNorCrossing_iff_walk pattern.automaton pattern.start ⟨3⟩ linked
  obtain ⟨missed, -, -, -, unexempted⟩ :=
    @canReachNorCrossing_iff_walk pattern.automaton pattern.start ⟨2⟩ linked
  have isFound : found = true := Except.ok.inj (answered.symm.trans yes)
  exact ⟨pattern, built, linked, ⟨yes, found_iff.mp isFound⟩, no,
    fun visited visits steps => (unexempted visited visits steps).2⟩

end PatternGraph
