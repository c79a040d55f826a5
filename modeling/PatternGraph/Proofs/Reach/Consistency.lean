/-
This file proves that the queries about a finished pattern do not contradict each other. The walks
have different rules, but what they find comes down to paths, and each path of a stricter kind is a
path of the kind that the next question asks for. Moves that consume nothing and cross no boundary
may be made where boundaries are crossed, and whatever is found with or without consumed input can
be reached.

Two verdicts rule answers out. If only the empty suffix can follow, no character is entered, because
up to its first character the walk for consumed input takes the same steps. And from a start that is
anchored at the end the final state is not found without crossing a boundary: such a path leaves no
boundary, so it meets no end boundary either.

The checkers have an empty memory and room for all states, so their answers are exact.
-/

import PatternGraph.Proofs.Reach.Answers
import PatternGraph.Proofs.Reach.Uncrossed

namespace PatternGraph

open Relation

/-- The checker remembers nothing and has room for an answer about every state. -/
structure Checker.Unused (checker : Checker) (automaton : Automaton) : Prop where
  empty : checker.memory = []
  enough : automaton.size ≤ checker.limit

namespace Automaton

/-- The answers about a start, a goal and the final state do not contradict each other, where one
checker is asked whether the goal can be reached and the other whether input is consumed on the
way. -/
structure Consistent (automaton : Automaton) (start goal final : StateId)
    (searching consuming : Checker) : Prop where
  uncrossed : automaton.canReachWithoutConsumingNorCrossingBoundaries start goal = .ok true →
    automaton.canReachWithoutConsuming start goal = .ok true
  unconsuming : automaton.canReachWithoutConsuming start goal = .ok true →
    (searching.canReach automaton start goal).answer = .ok true
  consumed : (consuming.canReachConsuming automaton start goal).answer = .ok true →
    (searching.canReach automaton start goal).answer = .ok true
  emptySuffix : automaton.onlyMatchesEmptySuffix start = .ok true →
    (consuming.canReachConsuming automaton start goal).answer = .ok false
  anchored : automaton.isAnchoredAtEnd start = .ok true →
    automaton.canReachWithoutConsumingNorCrossingBoundaries start final = .ok false

section

variable {automaton : Automaton} {start goal id next : StateId} {checker : Checker}

/-! ### Stricter paths -/

/-- Moves that cross no boundary may be made where boundaries are crossed. -/
theorem freely_of_uncrossed (path : ReflTransGen (automaton.MovesFreely true) start goal) :
    ReflTransGen (automaton.MovesFreely false) start goal :=
  ReflTransGen.mono (fun _ _ move => ⟨⟨nofun, move.1.2⟩, move.2⟩) _ _ path

/-- A state that is left without crossing a boundary is no end boundary. -/
theorem isUnanchored_of_canLeave (canLeave : automaton.CanLeave true id) :
    automaton.IsUnanchored id := by
  have none := boundary?_of_canLeave canLeave
  obtain ⟨state, found, -⟩ := exists_of_map_eq_ok (canLeave rfl)
  rw [IsUnanchored, isEndBoundary, found, none]
  rfl

/-- Free moves that cross no boundary meet no end boundary. -/
theorem openPath_of_uncrossed (path : ReflTransGen (automaton.MovesFreely true) start goal) :
    automaton.OpenPath automaton.IsUnanchored start goal :=
  ReflTransGen.mono (fun _ _ move => ⟨isUnanchored_of_canLeave move.1.1, move.1.2⟩) _ _ path

/-- What is passed without consuming is passed over or moved to. -/
theorem PassesTo.movesPast (passes : automaton.PassesTo id next) : automaton.MovesPast id next := by
  unfold PassesTo at passes
  unfold MovesPast
  split_ifs at passes ⊢
  · exact passes
  · exact passes.1

theorem ConsumesAt.movesPast (consumes : automaton.ConsumesAt id next) :
    automaton.MovesPast id next := by
  rw [MovesPast, consumes.1, if_neg Bool.false_ne_true]
  exact consumes.2.1

/-- A path that consumes enters a character behind steps that pass over lookarounds. -/
theorem ConsumingPath.exists_character {counts : StateId → Prop}
    (path : automaton.ConsumingPath goal start counts) :
    ∃ character, ReflTransGen automaton.MovesPast start character ∧
      automaton.EntersConsuming character := by
  obtain ⟨id, character, passes, -, consumes, -, -⟩ := path
  have before : ReflTransGen automaton.MovesPast start id :=
    ReflTransGen.mono (fun _ _ step => PassesTo.movesPast (And.right step)) _ _ passes
  exact ⟨character, before.tail consumes.movesPast, consumes.2.2⟩

/-! ### Answers that follow from each other -/

section

variable (linked : automaton.LinkedFrom start)

include linked

theorem canReachWithoutConsuming_of_uncrossed
    (yes : automaton.canReachWithoutConsumingNorCrossingBoundaries start goal = .ok true) :
    automaton.canReachWithoutConsuming start goal = .ok true := by
  obtain ⟨strict, answered, freely⟩ := exists_canReachNorCrossing linked goal
  cases answered.symm.trans yes
  obtain ⟨answer, answeredToo, sure, -⟩ := answersBetween_canReachWithoutConsuming linked goal
  rw [answeredToo, sure (sure_of_freely (freely_of_uncrossed (freely.mp rfl)))]

theorem reaches_of_canReachWithoutConsuming
    (yes : automaton.canReachWithoutConsuming start goal = .ok true) :
    automaton.Reaches start goal := by
  obtain ⟨answer, answered, -, possible⟩ := answersBetween_canReachWithoutConsuming linked goal
  cases answered.symm.trans yes
  exact reaches_of_possible (possible rfl)

theorem not_reachesEnd_of_isAnchoredAtEnd (yes : automaton.isAnchoredAtEnd start = .ok true) :
    ¬ automaton.ReachesEnd start := by
  obtain ⟨answer, answered, no_iff⟩ := exists_isAnchoredAtEnd linked
  cases answered.symm.trans yes
  exact fun reaches => Bool.false_ne_true (no_iff.mpr reaches).symm

theorem canReachNorCrossing_of_isAnchoredAtEnd (isFinal : automaton.isFinal goal = true)
    (yes : automaton.isAnchoredAtEnd start = .ok true) :
    automaton.canReachWithoutConsumingNorCrossingBoundaries start goal = .ok false := by
  obtain ⟨answer, answered, freely⟩ := exists_canReachNorCrossing linked goal
  have no : answer = false := Bool.eq_false_iff.mpr fun found =>
    not_reachesEnd_of_isAnchoredAtEnd linked yes
      ⟨goal, isFinal, openPath_of_uncrossed (freely.mp found)⟩
  rw [answered, no]

section

variable (unused : checker.Unused automaton)

include unused

theorem canReach_of_reaches (reaches : automaton.Reaches start goal) :
    (checker.canReach automaton start goal).answer = .ok true := by
  obtain ⟨answer, answered, right⟩ :=
    (Checker.reliable_of_memory_nil unused.empty unused.enough).canReach linked
  rw [answered, right.mpr reaches]

theorem consumingPath_of_canReachConsuming
    (yes : (checker.canReachConsuming automaton start goal).answer = .ok true) :
    automaton.ConsumingPath goal start (automaton.PassesUnguarded goal start) := by
  obtain ⟨answer, answered, -, sound⟩ :=
    Checker.answersConsuming_of_memory_nil goal linked unused.empty unused.enough
  cases answered.symm.trans yes
  exact sound rfl

theorem canReachConsuming_of_onlyMatchesEmptySuffix
    (yes : automaton.onlyMatchesEmptySuffix start = .ok true) :
    (checker.canReachConsuming automaton start goal).answer = .ok false := by
  obtain ⟨answer, answered, empty⟩ := exists_onlyMatchesEmptySuffix linked
  cases answered.symm.trans yes
  obtain ⟨consumed, answeredToo, -, sound⟩ :=
    Checker.answersConsuming_of_memory_nil goal linked unused.empty unused.enough
  have no : consumed = false := Bool.eq_false_iff.mpr fun found => by
    obtain ⟨character, path, enters⟩ := (sound found).exists_character
    cases (empty.mp rfl character path).symm.trans enters
  rw [answeredToo, no]

end

/-- Queries at a start from which everything is linked are consistent. -/
theorem LinkedFrom.consistent {final : StateId} (isFinal : automaton.isFinal final = true)
    (goal : StateId) {searching consuming : Checker} (searchingUnused : searching.Unused automaton)
    (consumingUnused : consuming.Unused automaton) :
    automaton.Consistent start goal final searching consuming where
  uncrossed := canReachWithoutConsuming_of_uncrossed linked
  unconsuming yes := canReach_of_reaches linked searchingUnused
    (reaches_of_canReachWithoutConsuming linked yes)
  consumed yes := canReach_of_reaches linked searchingUnused
    ((consumingPath_of_canReachConsuming linked consumingUnused yes).reaches linked)
  emptySuffix := canReachConsuming_of_onlyMatchesEmptySuffix linked consumingUnused
  anchored := canReachNorCrossing_of_isAnchoredAtEnd linked isFinal

end

end

end Automaton

/-- Queries at an inner state of a finished pattern all have an answer, and their answers do not
contradict each other, if the checkers remember nothing and have room for all states. -/
theorem queries_consistent {pattern : Pattern} (finished : pattern.Finished) {id : StateId}
    (inner : pattern.Inner id) (goal : StateId) {searching consuming : Checker}
    (searchingUnused : searching.Unused pattern.automaton)
    (consumingUnused : consuming.Unused pattern.automaton) :
    pattern.automaton.AnswersFrom id ∧
      pattern.automaton.Consistent id goal pattern.final searching consuming := by
  have sound := finished.sound
  obtain ⟨flags, finalHeld⟩ := sound.finalHeld
  have linked := sound.linkedFrom (inner.outside finished)
  exact ⟨linked.answersFrom, linked.consistent (Automaton.isFinal_of_state? finalHeld) goal
    searchingUnused consumingUnused⟩

/-- The calls that build `(^|a)*$`. -/
def anchoredLoopCalls : List Call :=
  [.construct ⟨⟨1, 2⟩, .empty, .leaf (.boundary .lineStart)⟩,
    .construct ⟨⟨3, 4⟩, .empty, .leaf (.character ⟨97, false⟩)⟩,
    .construct ⟨⟨1, 4⟩, .empty, .disjunction [⟨0⟩, ⟨1⟩] [⟨⟨2, 3⟩, '|', false⟩]⟩,
    .construct ⟨⟨0, 5⟩, .empty, .capturingGroup none 1 ⟨2⟩⟩,
    .construct ⟨⟨0, 6⟩, .empty, .repetition ⟨3⟩ ⟨⟨5, 6⟩, .greedy, .sign .star⟩⟩,
    .construct ⟨⟨6, 7⟩, .empty, .leaf (.boundary .lineEnd)⟩,
    .construct ⟨⟨0, 7⟩, .empty, .sequence [⟨5⟩, ⟨6⟩]⟩]

/-- The pattern `(^|a)*$`. -/
def anchoredLoop? : Option Pattern :=
  finishedPattern? ⟨"(^|a)*$", .java, []⟩ anchoredLoopCalls ⟨8⟩ .empty

/-- From the end of the group in `(^|a)*$` the boundary at the end is found with and without
consumed input, and the final state is not found without crossing it. -/
theorem anchoredLoop_queries_consistent :
    ∃ pattern, anchoredLoop? = some pattern ∧ pattern.Inner ⟨4⟩ ∧
      let searching := Checker.withLimit false 11
      let consuming := Checker.withLimit true 11
      searching.Unused pattern.automaton ∧ consuming.Unused pattern.automaton ∧
      pattern.automaton.AnswersFrom ⟨4⟩ ∧
      pattern.automaton.Consistent ⟨4⟩ ⟨6⟩ pattern.final searching consuming ∧
      pattern.automaton.canReachWithoutConsumingNorCrossingBoundaries ⟨4⟩ ⟨6⟩ = .ok true ∧
      (consuming.canReachConsuming pattern.automaton ⟨4⟩ ⟨6⟩).answer = .ok true ∧
      pattern.automaton.isAnchoredAtEnd ⟨4⟩ = .ok true := by
  have computed : (anchoredLoop?.map fun pattern =>
      (decide (pattern.automaton.Child pattern.root ⟨5⟩ ∧ pattern.automaton.Child ⟨5⟩ ⟨3⟩),
        (pattern.automaton.state? ⟨4⟩).map State.owner?, pattern.automaton.size)) =
      some (true, some (some ⟨3⟩), 11) := by decide +kernel
  have asked : (anchoredLoop?.map fun pattern =>
      (pattern.automaton.canReachWithoutConsumingNorCrossingBoundaries ⟨4⟩ ⟨6⟩,
        ((Checker.withLimit true 11).canReachConsuming pattern.automaton ⟨4⟩ ⟨6⟩).answer,
        pattern.automaton.isAnchoredAtEnd ⟨4⟩)) = some (.ok true, .ok true, .ok true) := by
    decide +kernel
  obtain ⟨pattern, built, facts⟩ := Option.map_eq_some_iff.mp computed
  obtain ⟨named, facts⟩ := Prod.mk.inj facts
  obtain ⟨owner, size⟩ := Prod.mk.inj facts
  rw [built, Option.map_some, Option.some.injEq] at asked
  obtain ⟨uncrossed, answers⟩ := Prod.mk.inj asked
  obtain ⟨consumed, anchored⟩ := Prod.mk.inj answers
  obtain ⟨outer, nested⟩ := decide_eq_true_iff.mp named
  obtain ⟨state, found, owned⟩ := Option.map_eq_some_iff.mp owner
  have inner : pattern.Inner ⟨4⟩ := .glue found owned (.tail (.single outer) nested)
  have unused (defaultAnswer : Bool) :
      (Checker.withLimit defaultAnswer 11).Unused pattern.automaton := ⟨rfl, Nat.le_of_eq size⟩
  obtain ⟨answers, consistent⟩ := queries_consistent (finished_of_finishedPattern? built) inner ⟨6⟩
    (unused false) (unused true)
  exact ⟨pattern, built, inner, unused false, unused true, answers, consistent, uncrossed, consumed,
    anchored⟩

end PatternGraph
