/-
This file gives the measure by which every search of an automaton ends. A search keeps track of the
states it has seen and expands a state at most once. Give each state a weight that covers the work
its expansion puts on the list of things to do; `unexplored` is the weight of the states not seen
yet. Seeing a new state takes at least its weight away, which is the content of `unexplored_le`, so
the work still to be done shrinks with every step however the edges of the automaton run.
-/

import PatternGraph.Answer
import PatternGraph.Automaton.Successors

namespace PatternGraph

/-- The total weight of the listed states that were not seen. -/
def weightUnseen (weight : StateId → Nat) (seen : StateId → Bool) : List StateId → Nat
  | [] => 0
  | id :: rest => (if seen id then 0 else weight id) + weightUnseen weight seen rest

theorem weightUnseen_anti (weight : StateId → Nat) {before after : StateId → Bool}
    (grows : ∀ id, before id = true → after id = true) (ids : List StateId) :
    weightUnseen weight after ids ≤ weightUnseen weight before ids := by
  induction ids with
  | nil => simp [weightUnseen]
  | cons id rest inductionHypothesis =>
    have := grows id
    simp only [weightUnseen]
    cases seenBefore : before id <;> cases seenAfter : after id <;> simp_all
    omega

/-- Seeing one more of the listed states takes its weight away. -/
theorem weightUnseen_le (weight : StateId → Nat) {before after : StateId → Bool} {seen : StateId}
    (grows : ∀ id, before id = true → after id = true) (unseen : before seen = false)
    (now : after seen = true) {ids : List StateId} (member : seen ∈ ids) :
    weightUnseen weight after ids + weight seen ≤ weightUnseen weight before ids := by
  induction ids with
  | nil => cases member
  | cons id rest inductionHypothesis =>
    simp only [weightUnseen]
    by_cases same : id = seen
    · subst same
      have := weightUnseen_anti weight grows rest
      simp only [unseen, now, if_true]
      simp only [Bool.false_eq_true, if_false]
      omega
    · have inRest : seen ∈ rest := by
        rcases List.mem_cons.mp member with equal | inRest
        · exact absurd equal.symm same
        · exact inRest
      have := inductionHypothesis inRest
      have := grows id
      cases seenBefore : before id <;> cases seenAfter : after id <;> simp_all <;> omega

namespace Automaton

/-- The total weight of the states that were not seen. -/
def unexplored (automaton : Automaton) (weight : StateId → Nat) (seen : StateId → Bool) : Nat :=
  weightUnseen weight seen automaton.ids

theorem mem_ids_of_state {automaton : Automaton} {id : StateId} {state : State}
    (found : automaton.state id = .ok state) : id ∈ automaton.ids := by
  have inBounds : id.index < automaton.size := by
    unfold Automaton.state at found
    split at found
    · rename_i stored
      exact (Array.getElem?_eq_some_iff.mp stored).1
    · cases found
  simp only [ids, List.mem_map, List.mem_range]
  exact ⟨id.index, inBounds, rfl⟩

theorem mem_ids_of_successors {automaton : Automaton} {id : StateId} {next : List StateId}
    (found : automaton.successors id = .ok next) : id ∈ automaton.ids := by
  obtain ⟨state, held, -⟩ := exists_of_bind_eq_ok found
  exact mem_ids_of_state held

/-- Seeing one more state of the automaton takes its weight away. -/
theorem unexplored_le {automaton : Automaton} (weight : StateId → Nat)
    {before after : StateId → Bool} {seen : StateId}
    (grows : ∀ id, before id = true → after id = true) (unseen : before seen = false)
    (now : after seen = true) (member : seen ∈ automaton.ids) :
    automaton.unexplored weight after + weight seen ≤ automaton.unexplored weight before :=
  weightUnseen_le weight grows unseen now member

/-- The same where the seen states are kept in a list. -/
theorem unexplored_cons_le {automaton : Automaton} (weight : StateId → Nat)
    {visited : List StateId} {seen : StateId} (unseen : visited.contains seen = false)
    (member : seen ∈ automaton.ids) :
    automaton.unexplored weight (seen :: visited).contains + weight seen ≤
      automaton.unexplored weight visited.contains :=
  unexplored_le weight (fun id held => by simp_all) unseen (by simp) member

/-- The number of successors of a state, zero when the question has no answer. -/
def fanOut (automaton : Automaton) (id : StateId) : Nat :=
  match automaton.successors id with
  | .ok next => next.length
  | .error _ => 0

theorem fanOut_of_successors {automaton : Automaton} {id : StateId} {next : List StateId}
    (found : automaton.successors id = .ok next) : automaton.fanOut id = next.length := by
  simp [fanOut, found]

end Automaton

end PatternGraph
