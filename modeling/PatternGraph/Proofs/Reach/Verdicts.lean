/-
This file says on what two verdicts about the rest of a pattern depend. Whether a state is anchored
at the end depends on the paths to the final state: the answer is no if one of them meets no end
boundary, and then also one that visits no state twice. Whether nothing but the empty suffix can
follow depends on the states that can be reached when lookarounds are passed over: the answer is yes
if each of them is entered by an empty step.

Both walks treat a state that was visited before, even one that is still being explored, as if it
spoke for the verdict they hope for. They can, because whatever decides against is found from the
first visit. So neither verdict depends on what the walk happens to meet first, and for the second
this is said of two automata: the order of successors may differ in them, and so may whatever their
lookarounds enclose.
-/

import PatternGraph.Proofs.Reach.Sweep

namespace PatternGraph

open Relation

namespace Automaton

/-! ### Anchored at the end -/

/-- The state is one of the boundaries `$`, `\Z` and `\z`. -/
def AssertsEnd (automaton : Automaton) (id : StateId) : Prop :=
  ∃ asserted ∈ [Boundary.lineEnd, .inputEndFinalTerminator, .inputEnd],
    automaton.boundary? id = some asserted

/-- A path of successors to the final state that meets no end boundary, as the list of the states
that it visits. -/
def UnanchoredWalk (automaton : Automaton) (start : StateId) (visited : List StateId) : Prop :=
  ∃ final, automaton.isFinal final = true ∧ automaton.Walk start visited final ∧
    ∀ id ∈ visited, ¬ automaton.AssertsEnd id

section

variable {automaton : Automaton} {start id : StateId}

theorem isUnanchored_iff_not_assertsEnd {state : State} (found : automaton.state id = .ok state) :
    automaton.IsUnanchored id ↔ ¬ automaton.AssertsEnd id := by
  rw [IsUnanchored, isEndBoundary, found, AssertsEnd]
  cases automaton.boundary? id with
  | none => simp [Except.map]
  | some asserted => cases asserted <;> simp [Except.map, Boundary.isEnd]

/-- The final state is no boundary, so the states before it decide. -/
theorem reachesEnd_iff_exists_unanchoredWalk (linked : automaton.LinkedFrom start) :
    automaton.ReachesEnd start ↔ ∃ visited, automaton.UnanchoredWalk start visited := by
  have open_iff {visited : List StateId} {final id : StateId}
      (walk : automaton.Walk start visited final) (member : id ∈ visited) :
      automaton.IsUnanchored id ↔ ¬ automaton.AssertsEnd id := by
    obtain ⟨state, found⟩ := linked.exists_state (walk.reaches_of_mem member)
    exact isUnanchored_iff_not_assertsEnd found
  constructor
  · rintro ⟨final, isFinal, path⟩
    obtain ⟨visited, walk, unmet⟩ := openPath_iff_exists_walk.mp path
    refine ⟨visited, final, isFinal, walk, fun id member => (open_iff walk member).mp ?_⟩
    rw [walk.eq_dropLast_append] at member
    rcases List.mem_append.mp member with before | last
    · exact unmet id before
    · exact List.mem_singleton.mp last ▸ isUnanchored_of_isFinal isFinal
  · rintro ⟨visited, final, isFinal, walk, unmet⟩
    refine ⟨final, isFinal, openPath_iff_exists_walk.mpr ⟨visited, walk, fun id before => ?_⟩⟩
    have member := List.mem_of_mem_dropLast before
    exact (open_iff walk member).mpr (unmet id member)

theorem UnanchoredWalk.exists_simple {visited : List StateId}
    (walk : automaton.UnanchoredWalk start visited) :
    ∃ simple, automaton.UnanchoredWalk start simple ∧ simple.Nodup := by
  obtain ⟨final, isFinal, walk, unmet⟩ := walk
  obtain ⟨simple, onward, nodup, inside⟩ := walk.exists_simple
  exact ⟨simple, ⟨final, isFinal, onward, fun id member => unmet id (inside member)⟩, nodup⟩

end

end Automaton

/-- A start is not anchored at the end if there is a path of successors from it to the final state
on which no state is an end boundary, and only then. Loops do not matter: then there is also such a
path that visits no state twice. -/
theorem isAnchoredAtEnd_eq_false_iff_walk {automaton : Automaton} {start : StateId}
    (linked : automaton.LinkedFrom start) :
    ∃ answer, automaton.isAnchoredAtEnd start = .ok answer ∧
      (answer = false ↔ ∃ visited, automaton.UnanchoredWalk start visited) ∧
      (answer = false ↔ ∃ visited, automaton.UnanchoredWalk start visited ∧ visited.Nodup) := by
  obtain ⟨answer, answered, no_iff⟩ := Automaton.exists_isAnchoredAtEnd linked
  have walk_iff := no_iff.trans (Automaton.reachesEnd_iff_exists_unanchoredWalk linked)
  refine ⟨answer, answered, walk_iff, walk_iff.trans ⟨?_, ?_⟩⟩
  · rintro ⟨visited, walk⟩
    exact walk.exists_simple
  · rintro ⟨visited, walk, -⟩
    exact ⟨visited, walk⟩

/-- The calls that build `(a$|b)+`. -/
def halfAnchoredCalls : List Call :=
  [.construct ⟨⟨1, 2⟩, .empty, .leaf (.character ⟨97, false⟩)⟩,
    .construct ⟨⟨2, 3⟩, .empty, .leaf (.boundary .lineEnd)⟩,
    .construct ⟨⟨1, 3⟩, .empty, .sequence [⟨0⟩, ⟨1⟩]⟩,
    .construct ⟨⟨4, 5⟩, .empty, .leaf (.character ⟨98, false⟩)⟩,
    .construct ⟨⟨1, 5⟩, .empty, .disjunction [⟨2⟩, ⟨3⟩] [⟨⟨3, 4⟩, '|', false⟩]⟩,
    .construct ⟨⟨0, 6⟩, .empty, .capturingGroup none 1 ⟨4⟩⟩,
    .construct ⟨⟨0, 7⟩, .empty, .repetition ⟨5⟩ ⟨⟨6, 7⟩, .greedy, .sign .plus⟩⟩]

/-- The pattern `(a$|b)+`. -/
def halfAnchored? : Option Pattern :=
  finishedPattern? ⟨"(a$|b)+", .java, []⟩ halfAnchoredCalls ⟨7⟩ .empty

/-- In `(a$|b)+` the loop can be left by way of its second alternative, and not by way of the
first. -/
theorem halfAnchored_isAnchoredAtEnd_eq_false_iff_walk :
    ∃ pattern, halfAnchored? = some pattern ∧ pattern.automaton.LinkedFrom pattern.start ∧
      pattern.automaton.LinkedFrom ⟨2⟩ ∧
      (pattern.automaton.isAnchoredAtEnd pattern.start = .ok false ∧
        ∃ visited, pattern.automaton.UnanchoredWalk pattern.start visited ∧ visited.Nodup) ∧
      pattern.automaton.isAnchoredAtEnd ⟨2⟩ = .ok true ∧
        ¬ ∃ visited, pattern.automaton.UnanchoredWalk ⟨2⟩ visited := by
  have computed : (halfAnchored?.map fun pattern =>
      (pattern.automaton.allLinked && pattern.automaton.ids.contains pattern.start,
        pattern.automaton.allLinked && pattern.automaton.ids.contains ⟨2⟩,
        pattern.automaton.isAnchoredAtEnd pattern.start, pattern.automaton.isAnchoredAtEnd ⟨2⟩)) =
      some (true, true, .ok false, .ok true) := by decide +kernel
  obtain ⟨pattern, built, facts⟩ := Option.map_eq_some_iff.mp computed
  obtain ⟨started, facts⟩ := Prod.mk.inj facts
  obtain ⟨inside, facts⟩ := Prod.mk.inj facts
  obtain ⟨no, yes⟩ := Prod.mk.inj facts
  have linked := Automaton.linkedFrom_of_check started
  have linkedInside := Automaton.linkedFrom_of_check inside
  obtain ⟨answer, answered, -, walk_iff⟩ := isAnchoredAtEnd_eq_false_iff_walk linked
  obtain ⟨answerInside, answeredInside, walk_iff_inside, -⟩ :=
    isAnchoredAtEnd_eq_false_iff_walk linkedInside
  cases answered.symm.trans no
  cases answeredInside.symm.trans yes
  exact ⟨pattern, built, linked, linkedInside, ⟨no, walk_iff.mp rfl⟩, yes,
    fun walk => Bool.false_ne_true (walk_iff_inside.mpr walk).symm⟩

namespace Automaton

/-! ### Empty suffixes -/

/-- The same states are offered, in one order or another. -/
def Reorders (offer other : Except Fault (List StateId)) : Prop :=
  match offer, other with
  | .ok nexts, .ok others => nexts.Perm others
  | _, _ => False

/-- The states with a handle are alike to a walk that passes over lookarounds: entered in the same
way, and lookarounds with the same continuation, or others with the same successors in some order.
What a lookaround encloses is left open. -/
def AlikePast (automaton other : Automaton) (id : StateId) : Prop :=
  other.transition id = automaton.transition id ∧
    other.isLookAround id = automaton.isLookAround id ∧
    if automaton.isLookAround id = true then other.continuation id = automaton.continuation id
    else Reorders (automaton.successors id) (other.successors id)

instance : (offer other : Except Fault (List StateId)) → Decidable (Reorders offer other)
  | .ok nexts, .ok others => inferInstanceAs (Decidable (nexts.Perm others))
  | .ok _, .error _ | .error _, .ok _ | .error _, .error _ => inferInstanceAs (Decidable False)

instance (automaton other : Automaton) (id : StateId) :
    Decidable (automaton.AlikePast other id) :=
  inferInstanceAs (Decidable (other.transition id = automaton.transition id ∧
    other.isLookAround id = automaton.isLookAround id ∧
    if automaton.isLookAround id = true then other.continuation id = automaton.continuation id
    else Reorders (automaton.successors id) (other.successors id)))

instance (automaton : Automaton) (id next : StateId) : Decidable (automaton.MovesPast id next) :=
  inferInstanceAs (Decidable (if automaton.isLookAround id = true
    then automaton.continuation id = .ok (some next) else automaton.Moves id next))

section

variable {automaton other : Automaton} {start id next : StateId}

theorem AlikePast.movesPast_iff (alike : automaton.AlikePast other id) :
    other.MovesPast id next ↔ automaton.MovesPast id next := by
  obtain ⟨-, sameKind, rest⟩ := alike
  rw [MovesPast, MovesPast, sameKind]
  by_cases isLookAround : automaton.isLookAround id = true
  · rw [if_pos isLookAround] at rest
    rw [if_pos isLookAround, if_pos isLookAround, rest]
  · rw [if_neg isLookAround] at rest
    rw [if_neg isLookAround, if_neg isLookAround, Moves, Moves]
    cases offered : automaton.successors id with
    | error fault => simp [Reorders, offered] at rest
    | ok nexts =>
      cases offeredToo : other.successors id with
      | error fault => simp [Reorders, offered, offeredToo] at rest
      | ok others =>
        have perm : nexts.Perm others := by simpa [Reorders, offered, offeredToo] using rest
        simp [perm.mem_iff]

/-- Automata whose states are alike as far as the steps of one of them lead have the same steps. -/
theorem movesPast_path_iff
    (alike : ∀ id, ReflTransGen automaton.MovesPast start id → automaton.AlikePast other id) :
    ReflTransGen other.MovesPast start id ↔ ReflTransGen automaton.MovesPast start id := by
  constructor
  · intro path
    induction path with
    | refl => exact .refl
    | tail _ step inductionHypothesis =>
      exact inductionHypothesis.tail ((alike _ inductionHypothesis).movesPast_iff.mp step)
  · intro path
    induction path with
    | refl => exact .refl
    | tail before step inductionHypothesis =>
      exact inductionHypothesis.tail ((alike _ before).movesPast_iff.mpr step)

theorem onlyMatchesEmptySuffix_of_alikePast (linked : automaton.LinkedFrom start)
    (linkedToo : other.LinkedFrom start)
    (alike : ∀ id, ReflTransGen automaton.MovesPast start id → automaton.AlikePast other id) :
    other.onlyMatchesEmptySuffix start = automaton.onlyMatchesEmptySuffix start := by
  obtain ⟨answer, answered, yes_iff⟩ := exists_onlyMatchesEmptySuffix linked
  obtain ⟨answerToo, answeredToo, yes_iff_too⟩ := exists_onlyMatchesEmptySuffix linkedToo
  have same : answerToo = true ↔ answer = true := by
    rw [yes_iff, yes_iff_too]
    refine forall_congr' fun id => ?_
    rw [movesPast_path_iff alike]
    exact forall_congr' fun path => by rw [(alike id path).1]
  rw [answered, answeredToo, Bool.eq_iff_iff.mpr same]

end

end Automaton

/-- Only the empty suffix can follow a start if every state that can be reached from it, where a
lookaround leads to its continuation only, is entered by an empty step, and only then. The answer is
the same in every automaton in which these states are alike, whatever the order of their successors
and the content of their lookarounds. -/
theorem onlyMatchesEmptySuffix_iff {automaton : Automaton} {start : StateId}
    (linked : automaton.LinkedFrom start) :
    ∃ answer, automaton.onlyMatchesEmptySuffix start = .ok answer ∧
      (answer = true ↔ ∀ id, ReflTransGen automaton.MovesPast start id →
        automaton.transition id = .ok .epsilon) ∧
      ∀ other : Automaton, other.LinkedFrom start →
        (∀ id, ReflTransGen automaton.MovesPast start id → automaton.AlikePast other id) →
        other.onlyMatchesEmptySuffix start = .ok answer := by
  obtain ⟨answer, answered, yes_iff⟩ := Automaton.exists_onlyMatchesEmptySuffix linked
  refine ⟨answer, answered, yes_iff, fun other linkedToo alike => ?_⟩
  rw [Automaton.onlyMatchesEmptySuffix_of_alikePast linked linkedToo alike, answered]

/-- The calls that build `(?=a)(^|$)*`, with the given content of the lookahead and the given
quantifier of the repetition. -/
def emptySuffixCalls (content : Leaf) (quantifier : Quantifier) : List Call :=
  [.construct ⟨⟨3, 4⟩, .empty, .leaf content⟩,
    .construct ⟨⟨0, 5⟩, .empty, .lookAround .positive .ahead ⟨0⟩⟩,
    .construct ⟨⟨6, 7⟩, .empty, .leaf (.boundary .lineStart)⟩,
    .construct ⟨⟨8, 9⟩, .empty, .leaf (.boundary .lineEnd)⟩,
    .construct ⟨⟨6, 9⟩, .empty, .disjunction [⟨3⟩, ⟨4⟩] [⟨⟨7, 8⟩, '|', false⟩]⟩,
    .construct ⟨⟨5, 10⟩, .empty, .capturingGroup none 1 ⟨5⟩⟩,
    .construct ⟨⟨5, 11⟩, .empty, .repetition ⟨6⟩ quantifier⟩,
    .construct ⟨⟨0, 11⟩, .empty, .sequence [⟨1⟩, ⟨8⟩]⟩]

/-- The pattern `(?=a)(^|$)*`. -/
def emptySuffix? : Option Pattern :=
  finishedPattern? ⟨"(?=a)(^|$)*", .java, []⟩
    (emptySuffixCalls (.character ⟨97, false⟩) ⟨⟨10, 11⟩, .greedy, .sign .star⟩) ⟨9⟩ .empty

/-- The pattern `(?=^)(^|$)*?`. -/
def emptySuffixReordered? : Option Pattern :=
  finishedPattern? ⟨"(?=^)(^|$)*?", .java, []⟩
    (emptySuffixCalls (.boundary .lineStart) ⟨⟨10, 12⟩, .reluctant, .sign .star⟩) ⟨9⟩ .empty

/-- In `(?=^)(^|$)*?` the repetition offers its ways in the other order than in `(?=a)(^|$)*`, and
the content of the lookahead is another. -/
theorem emptySuffix_onlyMatchesEmptySuffix_iff :
    ∃ pattern other, emptySuffix? = some pattern ∧ emptySuffixReordered? = some other ∧
      pattern.automaton.LinkedFrom ⟨11⟩ ∧ other.automaton.LinkedFrom ⟨11⟩ ∧
      ¬ pattern.automaton.AlikePast other.automaton ⟨0⟩ ∧
      pattern.automaton.successors ⟨8⟩ ≠ other.automaton.successors ⟨8⟩ ∧
      pattern.automaton.onlyMatchesEmptySuffix ⟨11⟩ = .ok true ∧
      (∀ id, ReflTransGen pattern.automaton.MovesPast ⟨11⟩ id →
        pattern.automaton.transition id = .ok .epsilon) ∧
      other.automaton.onlyMatchesEmptySuffix ⟨11⟩ = .ok true := by
  have computed : (emptySuffix?.map fun pattern =>
      (pattern.automaton.allLinked && pattern.automaton.ids.contains ⟨11⟩,
        pattern.automaton.onlyMatchesEmptySuffix ⟨11⟩,
        decide (∀ id ∈ pattern.automaton.ids, ¬ pattern.automaton.MovesPast id ⟨0⟩))) =
      some (true, .ok true, true) := by decide +kernel
  have compared : (emptySuffix?.bind fun pattern => emptySuffixReordered?.map fun other =>
      (other.automaton.allLinked && other.automaton.ids.contains ⟨11⟩,
        decide (∀ id ∈ pattern.automaton.ids,
          id ≠ ⟨0⟩ → pattern.automaton.AlikePast other.automaton id),
        decide (¬ pattern.automaton.AlikePast other.automaton ⟨0⟩ ∧
          pattern.automaton.successors ⟨8⟩ ≠ other.automaton.successors ⟨8⟩))) =
      some (true, true, true) := by decide +kernel
  obtain ⟨pattern, built, facts⟩ := Option.map_eq_some_iff.mp computed
  obtain ⟨checked, facts⟩ := Prod.mk.inj facts
  obtain ⟨yes, skipped⟩ := Prod.mk.inj facts
  rw [built, Option.bind_some] at compared
  obtain ⟨other, builtToo, facts⟩ := Option.map_eq_some_iff.mp compared
  obtain ⟨checkedToo, facts⟩ := Prod.mk.inj facts
  obtain ⟨alike, different⟩ := Prod.mk.inj facts
  obtain ⟨apart, reordered⟩ := decide_eq_true_iff.mp different
  have linked := Automaton.linkedFrom_of_check checked
  have linkedToo := Automaton.linkedFrom_of_check checkedToo
  -- The content of the lookahead is not alike, and no step leads there.
  have alikePast (id : StateId) (path : ReflTransGen pattern.automaton.MovesPast ⟨11⟩ id) :
      pattern.automaton.AlikePast other.automaton id := by
    have member := (linked.reaches (Automaton.MovesPast.reaches linked path)).mem_ids
    refine decide_eq_true_iff.mp alike id member ?_
    rintro rfl
    rcases ReflTransGen.cases_tail path with same | ⟨before, path, step⟩
    · cases same
    · have reaches := Automaton.MovesPast.reaches linked path
      exact decide_eq_true_iff.mp skipped before (linked.reaches reaches).mem_ids step
  obtain ⟨answer, answered, yes_iff, sameAnswer⟩ := onlyMatchesEmptySuffix_iff linked
  cases answered.symm.trans yes
  exact ⟨pattern, other, built, builtToo, linked, linkedToo, apart, reordered, yes, yes_iff.mp rfl,
    sameAnswer _ linkedToo alikePast⟩

end PatternGraph
