/-
This file gives the paths of the graph in two forms and translates between them. That the goal can
be reached is a relation between states, and searches are measured against such relations. A walk
keeps the list of the states that it visits, from its first to its last, so it can say what holds of
all of them, of all but the last, which it leaves, and of all but the first, which it enters.
-/

import PatternGraph.Proofs.Language.Basic
import PatternGraph.Proofs.Reach.Search

namespace PatternGraph.Automaton

open Relation

variable {automaton : Automaton} {start goal id next : StateId} {visited : List StateId}

/-! ### The states of a walk -/

theorem Walk.exists_tail (walk : automaton.Walk id visited goal) :
    ∃ rest, visited = id :: rest := by
  cases walk with
  | stop => exact ⟨[], rfl⟩
  | step moves rest => exact ⟨_, rfl⟩

theorem Walk.mem_start (walk : automaton.Walk id visited goal) : id ∈ visited := by
  cases walk <;> exact List.mem_cons_self

theorem Walk.head_eq {first : StateId} {rest : List StateId}
    (walk : automaton.Walk id (first :: rest) goal) : id = first := by
  obtain ⟨_, same⟩ := walk.exists_tail
  exact (List.cons.inj same).1.symm

/-- A walk leaves the states before its goal. -/
theorem Walk.eq_dropLast_append (walk : automaton.Walk id visited goal) :
    visited = visited.dropLast ++ [goal] := by
  induction walk with
  | stop => rfl
  | step moves onward inductionHypothesis =>
    obtain ⟨rest, rfl⟩ := onward.exists_tail
    rw [List.dropLast_cons_cons, List.cons_append, ← inductionHypothesis]

/-- A path goes on from each of its states. -/
theorem Walk.exists_from {middle : StateId} (walk : automaton.Walk id visited goal)
    (member : middle ∈ visited) : ∃ rest, automaton.Walk middle rest goal ∧ rest <:+ visited := by
  induction walk with
  | stop id =>
    obtain rfl := List.mem_singleton.mp member
    exact ⟨_, .stop _, List.suffix_rfl⟩
  | step moves rest inductionHypothesis =>
    rcases List.mem_cons.mp member with same | later
    · subst same
      exact ⟨_, .step moves rest, List.suffix_rfl⟩
    · obtain ⟨left, onward, suffix⟩ := inductionHypothesis later
      exact ⟨left, onward, suffix.trans (List.suffix_cons _ _)⟩

theorem Walk.append_step (walk : automaton.Walk start visited id)
    (moves : automaton.Moves id next) : automaton.Walk start (visited ++ [next]) next := by
  induction walk with
  | stop => exact .step moves (.stop next)
  | step first _ inductionHypothesis => exact .step first (inductionHypothesis moves)

/-- Without its loops a walk visits no state twice, and no other states. -/
theorem Walk.exists_simple (walk : automaton.Walk id visited goal) :
    ∃ simple, automaton.Walk id simple goal ∧ simple.Nodup ∧ simple ⊆ visited := by
  induction walk with
  | stop id => exact ⟨[id], .stop id, List.nodup_singleton id, List.Subset.refl _⟩
  | @step id next goal visited moves _ inductionHypothesis =>
    obtain ⟨simple, onward, nodup, inside⟩ := inductionHypothesis
    by_cases again : id ∈ simple
    · obtain ⟨rest, back, suffix⟩ := onward.exists_from again
      exact ⟨rest, back, nodup.sublist suffix.sublist,
        fun _ member => List.mem_cons_of_mem _ (inside (suffix.subset member))⟩
    · exact ⟨id :: simple, .step moves onward, List.nodup_cons.mpr ⟨again, nodup⟩,
        List.cons_subset_cons id inside⟩

/-! ### Walks and reachability -/

theorem Walk.reaches (walk : automaton.Walk id visited goal) : automaton.Reaches id goal := by
  induction walk with
  | stop => exact .refl
  | step moves _ inductionHypothesis => exact .head moves inductionHypothesis

theorem Walk.reaches_of_mem (walk : automaton.Walk start visited goal) (member : id ∈ visited) :
    automaton.Reaches start id := by
  induction walk with
  | stop =>
    obtain rfl := List.mem_singleton.mp member
    exact .refl
  | step moves _ inductionHypothesis =>
    rcases List.mem_cons.mp member with rfl | later
    · exact .refl
    · exact .head moves (inductionHypothesis later)

theorem Reaches.exists_walk (reaches : automaton.Reaches id goal) :
    ∃ rest, automaton.Walk id (id :: rest) goal := by
  induction reaches using ReflTransGen.head_induction_on with
  | refl => exact ⟨[], .stop goal⟩
  | head moves _ inductionHypothesis =>
    obtain ⟨rest, walk⟩ := inductionHypothesis
    exact ⟨_, .step moves walk⟩

/-- A path of moves of some kind is a path of successors, each state of which is on the way. -/
theorem exists_walk_of_moves {step : StateId → StateId → Prop}
    (moves : ∀ {id next}, step id next → automaton.Moves id next)
    (path : ReflTransGen step start goal) :
    ∃ visited, automaton.Walk start visited goal ∧
      ∀ id ∈ visited, ReflTransGen step start id ∧ ReflTransGen step id goal := by
  induction path using ReflTransGen.head_induction_on with
  | refl => exact ⟨[goal], .stop goal, by simp [ReflTransGen.refl]⟩
  | @head id next first rest inductionHypothesis =>
    obtain ⟨visited, walk, between⟩ := inductionHypothesis
    refine ⟨id :: visited, .step (moves first) walk, List.forall_mem_cons.mpr ⟨?_, ?_⟩⟩
    · exact ⟨.refl, .head first rest⟩
    · exact fun other member => ⟨.head first (between other member).1, (between other member).2⟩

/-- Moves that ask for something of the state they leave and of the state they enter make up the
walks that leave and enter such states. -/
theorem path_iff_exists_walk {leaves enters : StateId → Prop} :
    ReflTransGen (fun id next => (leaves id ∧ automaton.Moves id next) ∧ enters next) start goal ↔
      ∃ visited, automaton.Walk start visited goal ∧ (∀ id ∈ visited.dropLast, leaves id) ∧
        ∀ id ∈ visited.tail, enters id := by
  constructor
  · intro path
    induction path using ReflTransGen.head_induction_on with
    | refl => exact ⟨[goal], .stop goal, by simp, by simp⟩
    | @head id next step _ inductionHypothesis =>
      obtain ⟨visited, walk, left, entered⟩ := inductionHypothesis
      obtain ⟨rest, rfl⟩ := walk.exists_tail
      refine ⟨id :: next :: rest, .step step.1.2 walk, ?_, ?_⟩
      · rw [List.dropLast_cons_cons]
        exact List.forall_mem_cons.mpr ⟨step.1.1, left⟩
      · exact List.forall_mem_cons.mpr ⟨step.2, entered⟩
  · rintro ⟨visited, walk, left, entered⟩
    induction walk with
    | stop => exact .refl
    | step moves onward inductionHypothesis =>
      obtain ⟨rest, rfl⟩ := onward.exists_tail
      rw [List.dropLast_cons_cons] at left
      obtain ⟨leavesHere, leftLater⟩ := List.forall_mem_cons.mp left
      obtain ⟨entersNext, enteredLater⟩ := List.forall_mem_cons.mp entered
      exact .head ⟨⟨leavesHere, moves⟩, entersNext⟩ (inductionHypothesis leftLater enteredLater)

/-- An open path is a walk that leaves open states only. -/
theorem openPath_iff_exists_walk {isOpen : StateId → Prop} :
    automaton.OpenPath isOpen start goal ↔
      ∃ visited, automaton.Walk start visited goal ∧ ∀ id ∈ visited.dropLast, isOpen id := by
  have path_iff := @path_iff_exists_walk automaton start goal isOpen fun _ => True
  simp only [and_true, implies_true] at path_iff
  exact path_iff

end PatternGraph.Automaton
