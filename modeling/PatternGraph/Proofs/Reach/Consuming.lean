/-
This file says what a walk for consumed input does to the memory of its checker. The walk itself
remembers nothing beyond its own end; all it does to the memory it does by queries, and every query
starts at a state to which the walk was led along successors. A lookaround is no exception, because
its continuation is one of its successors. So whatever each such query keeps, the walk keeps, which
is `walkConsuming_preserves`.
-/

import PatternGraph.Proofs.Reach.Search
import PatternGraph.Reach.Consuming

namespace PatternGraph

namespace Automaton

/-! ### Visits that pass over lookarounds -/

theorem exists_lookAround {automaton : Automaton} {id : StateId}
    (isLookAround : automaton.isLookAround id = true) :
    ∃ treeNode body polarity direction entry, automaton.tree? id = some treeNode ∧
      treeNode.node = .lookAround body polarity direction entry := by
  unfold Automaton.isLookAround at isLookAround
  cases isTree : automaton.tree? id with
  | none => simp [isTree] at isLookAround
  | some treeNode =>
    simp only [isTree, beq_iff_eq] at isLookAround
    cases content : treeNode.node with
    | lookAround body polarity direction entry =>
      exact ⟨treeNode, body, polarity, direction, entry, rfl, content⟩
    | leaf leaf =>
      rw [content] at isLookAround
      cases leaf <;> cases isLookAround
    | _ =>
      rw [content] at isLookAround
      cases isLookAround

/-- Every visit that a state brings about is at one of its successors. -/
theorem moves_of_visitsPast {automaton : Automaton} {id : StateId} {visits : List Visit}
    (found : automaton.visitsPast id = .ok visits) {visit : Visit} (member : visit ∈ visits) :
    automaton.Moves id visit.state := by
  obtain ⟨state, held, found⟩ := exists_of_bind_eq_ok found
  split at found
  · rename_i isLookAround
    obtain ⟨treeNode, body, polarity, direction, entry, isTree, content⟩ :=
      exists_lookAround isLookAround
    obtain ⟨next, answered, rfl⟩ := exists_of_map_eq_ok found
    cases continues : treeNode.continuation with
    | none => cases (continuation_of_unset isTree continues).symm.trans answered
    | some stored =>
      cases (continuation_of_stored isTree continues).symm.trans answered
      obtain rfl := List.mem_singleton.mp member
      exact ⟨_, successors_lookAround isTree content continues,
        List.mem_cons_of_mem _ List.mem_cons_self⟩
  · obtain ⟨nexts, offered, rfl⟩ := exists_of_map_eq_ok found
    obtain ⟨next, inNexts, rfl⟩ := List.mem_map.mp member
    exact ⟨nexts, offered, inNexts⟩

end Automaton

namespace Checker

/-! ### The steps of a walk -/

section

variable {automaton : Automaton} {goal : StateId} {checker : Checker} {visited : List StateId}
  {visit : Visit} {pending : List Visit}

theorem walkConsuming_blocked (blocked : automaton.crossing visited visit = .ok .blocked) :
    walkConsuming automaton goal checker visited (visit :: pending) =
      walkConsuming automaton goal checker visited pending := by
  rw [walkConsuming]
  simp only [blocked]

theorem walkConsuming_refused (consumes : automaton.crossing visited visit = .ok .consuming)
    (refused : (checker.canReach automaton visit.state goal).answer = .ok false) :
    walkConsuming automaton goal checker visited (visit :: pending) =
      (walkConsuming automaton goal (checker.canReach automaton visit.state goal).checker visited
        pending).after (checker.canReach automaton visit.state goal).records := by
  rw [walkConsuming]
  simp only [consumes, refused]

/-- Any other answer to the query is that of the walk. -/
theorem walkConsuming_answered (consumes : automaton.crossing visited visit = .ok .consuming)
    (answered : (checker.canReach automaton visit.state goal).answer ≠ .ok false) :
    walkConsuming automaton goal checker visited (visit :: pending) =
      checker.canReach automaton visit.state goal := by
  rw [walkConsuming]
  simp only [consumes]

theorem walkConsuming_stops (free : automaton.crossing visited visit = .ok .free)
    (stops : visit.state = goal ∨ visit.state ∈ visited) :
    walkConsuming automaton goal checker visited (visit :: pending) =
      walkConsuming automaton goal checker visited pending := by
  rw [walkConsuming]
  simp only [free]
  rw [dif_pos (by simpa using stops)]

theorem walkConsuming_enters (free : automaton.crossing visited visit = .ok .free)
    (other : visit.state ≠ goal) (unseen : visit.state ∉ visited) {visits : List Visit}
    (found : automaton.visitsPast visit.state = .ok visits) :
    walkConsuming automaton goal checker visited (visit :: pending) =
      walkConsuming automaton goal checker (visit.state :: visited) (visits ++ pending) := by
  rw [walkConsuming]
  simp only [free]
  rw [dif_neg (by simpa using ⟨other, unseen⟩)]
  split
  · rename_i fault failed
    cases failed.symm.trans found
  · rename_i same foundToo
    cases found.symm.trans foundToo
    rfl

end

/-! ### What a walk keeps -/

section

variable {automaton : Automaton} {goal : StateId} {motive : Checker → Prop}
  (query : ∀ {checker : Checker} {start : StateId}, automaton.LinkedFrom start → motive checker →
    motive (checker.canReach automaton start goal).checker)

include query

/-- What every query for the goal keeps, a walk to the goal keeps. -/
theorem walkConsuming_preserves {checker : Checker} {visited : List StateId} {visits : List Visit}
    (linked : ∀ visit ∈ visits, automaton.LinkedFrom visit.state) (holds : motive checker) :
    motive (walkConsuming automaton goal checker visited visits).checker := by
  induction checker, visited, visits using walkConsuming.induct automaton goal with
  | case1 checker visited =>
    rw [walkConsuming]
    exact holds
  | case2 checker visited visit pending fault refused =>
    simp only [walkConsuming, refused]
    exact holds
  | case3 checker visited visit pending blocked inductionHypothesis =>
    obtain ⟨-, later⟩ := List.forall_mem_cons.mp linked
    rw [walkConsuming_blocked blocked]
    exact inductionHypothesis later holds
  | case4 checker visited visit pending consumes reached no inductionHypothesis =>
    obtain ⟨here, later⟩ := List.forall_mem_cons.mp linked
    rw [walkConsuming_refused consumes no]
    exact inductionHypothesis later (query here holds)
  | case5 checker visited visit pending consumes reached other =>
    obtain ⟨here, -⟩ := List.forall_mem_cons.mp linked
    rw [walkConsuming_answered consumes other]
    exact query here holds
  | case6 checker visited visit pending free stops inductionHypothesis =>
    obtain ⟨-, later⟩ := List.forall_mem_cons.mp linked
    rw [walkConsuming_stops free (by simpa using stops)]
    exact inductionHypothesis later holds
  | case7 checker visited visit pending free goesOn fault failed =>
    rw [walkConsuming]
    simp only [free, dif_neg goesOn]
    split
    · exact holds
    · rename_i found
      cases failed.symm.trans found
  | case8 checker visited visit pending free goesOn nexts found inductionHypothesis =>
    obtain ⟨here, later⟩ := List.forall_mem_cons.mp linked
    obtain ⟨other, unseen⟩ : visit.state ≠ goal ∧ visit.state ∉ visited := by simpa using goesOn
    rw [walkConsuming_enters free other unseen found]
    refine inductionHypothesis (fun further member => ?_) holds
    rcases List.mem_append.mp member with new | old
    · exact here.moves (Automaton.moves_of_visitsPast found new)
    · exact later further old

theorem canReachConsuming_preserves {checker : Checker} {start : StateId}
    (linked : automaton.LinkedFrom start) (holds : motive checker) :
    motive (checker.canReachConsuming automaton start goal).checker :=
  walkConsuming_preserves query (fun _ member => List.mem_singleton.mp member ▸ linked) holds

end

end Checker

end PatternGraph
