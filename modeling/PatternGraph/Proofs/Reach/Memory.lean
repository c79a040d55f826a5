/-
This file says what a reachability checker knows after its memory was changed. Its memory is read
only by way of `knownAnswer?`, so marking a pair and settling pairs are each described by one
equation for it, and a consultation by what its answer can come from.

A checker whose memory is full answers by default. This cannot happen during a query as long as
there is room for an entry of every state that has none for the goal, which is what `Roomy` says. In
particular a memory with room for all pairs of states is never full, since it holds no pair twice.
-/

import Mathlib.Data.List.Nodup
import Mathlib.Data.List.ProdSigma
import Mathlib.Data.List.Perm.Subperm
import PatternGraph.Proofs.Moves
import PatternGraph.Reach.Checker

namespace PatternGraph

namespace Checker

/-! ### What is known -/

theorem knownAnswer?_eq_of_memory {first second : Checker} (same : first.memory = second.memory)
    (start goal : StateId) : first.knownAnswer? start goal = second.knownAnswer? start goal := by
  rw [knownAnswer?, knownAnswer?, same]

theorem knownAnswer?_mark (checker : Checker) (marked goal start other : StateId) :
    (checker.mark marked goal).knownAnswer? start other =
      if start = marked ∧ other = goal then some false
      else checker.knownAnswer? start other := by
  simp only [knownAnswer?, mark, List.find?_cons]
  by_cases same : start = marked ∧ other = goal
  · obtain ⟨rfl, rfl⟩ := same
    simp
  · have apart : (marked == start && goal == other) = false := by
      rw [Bool.and_eq_false_iff, beq_eq_false_iff_ne, beq_eq_false_iff_ne]
      rcases not_and_or.mp same with otherStart | otherGoal
      · exact Or.inl (Ne.symm otherStart)
      · exact Or.inr (Ne.symm otherGoal)
    rw [apart, if_neg same]

/-- An empty memory knows nothing. -/
theorem knownAnswer?_of_memory_nil {checker : Checker} (empty : checker.memory = [])
    (start goal : StateId) : checker.knownAnswer? start goal = none := by
  rw [knownAnswer?, empty]
  rfl

/-- What settling makes of an entry. -/
def settledEntry (goal : StateId) (starts : List StateId) (entry : Reachability) : Reachability :=
  if entry.goal == goal && starts.contains entry.start then { entry with answer := true }
  else entry

theorem settledEntry_pair (goal : StateId) (starts : List StateId) (entry : Reachability) :
    (settledEntry goal starts entry).start = entry.start ∧
      (settledEntry goal starts entry).goal = entry.goal := by
  unfold settledEntry
  split <;> exact ⟨rfl, rfl⟩

theorem memory_settle (checker : Checker) (goal : StateId) (starts : List StateId) :
    (checker.settle goal starts).memory = checker.memory.map (settledEntry goal starts) := rfl

/-- Settling turns the entries of the given starts into yes, and adds none. -/
theorem knownAnswer?_settle (checker : Checker) (goal : StateId) (starts : List StateId)
    (start other : StateId) :
    (checker.settle goal starts).knownAnswer? start other =
      if other = goal ∧ start ∈ starts then (checker.knownAnswer? start other).map fun _ => true
      else checker.knownAnswer? start other := by
  have samePairs : (fun entry : Reachability => entry.start == start && entry.goal == other) ∘
      settledEntry goal starts = fun entry => entry.start == start && entry.goal == other := by
    funext entry
    rw [Function.comp_apply, (settledEntry_pair goal starts entry).1,
      (settledEntry_pair goal starts entry).2]
  rw [knownAnswer?, knownAnswer?, memory_settle, List.find?_map, samePairs, Option.map_map]
  cases held : checker.memory.find? fun entry => entry.start == start && entry.goal == other with
  | none => simp
  | some entry =>
    have matching := List.find?_some held
    simp only [Bool.and_eq_true, beq_iff_eq] at matching
    obtain ⟨rfl, rfl⟩ := matching
    simp only [Option.map_some, Function.comp_apply, settledEntry, Bool.and_eq_true, beq_iff_eq,
      List.contains_iff_mem]
    split <;> rfl

theorem remembers_eq_false_iff {checker : Checker} {start goal : StateId} :
    checker.remembers goal start = false ↔ checker.knownAnswer? start goal = none := by
  simp [remembers]

/-- The pairs that have entries. -/
def pairs (checker : Checker) : List (StateId × StateId) :=
  checker.memory.map fun entry => (entry.start, entry.goal)

theorem pairs_mark (checker : Checker) (start goal : StateId) :
    (checker.mark start goal).pairs = (start, goal) :: checker.pairs := rfl

theorem pairs_settle (checker : Checker) (goal : StateId) (starts : List StateId) :
    (checker.settle goal starts).pairs = checker.pairs := by
  rw [pairs, pairs, memory_settle, List.map_map]
  refine List.map_congr_left fun entry _ => ?_
  obtain ⟨sameStart, sameGoal⟩ := settledEntry_pair goal starts entry
  rw [Function.comp_apply, sameStart, sameGoal]

theorem knownAnswer?_eq_none_iff {checker : Checker} {start goal : StateId} :
    checker.knownAnswer? start goal = none ↔ (start, goal) ∉ checker.pairs := by
  rw [knownAnswer?, Option.map_eq_none_iff, List.find?_eq_none, pairs]
  simp

/-! ### Room for a query -/

/-- There is room for every state that has no entry for the goal. -/
def Roomy (checker : Checker) (automaton : Automaton) (goal : StateId) : Prop :=
  checker.memory.length + automaton.unexplored (fun _ => 1) (checker.remembers goal) ≤
    checker.limit

theorem Roomy.of_memory {first second : Checker} {automaton : Automaton} {goal : StateId}
    (roomy : first.Roomy automaton goal) (same : second.memory = first.memory)
    (limit : second.limit = first.limit) : second.Roomy automaton goal := by
  rwa [Roomy, same, limit, remembers_of_memory same]

theorem Roomy.mark {checker : Checker} {automaton : Automaton} {start goal : StateId}
    (roomy : checker.Roomy automaton goal) (member : start ∈ automaton.ids)
    (unknown : checker.knownAnswer? start goal = none) :
    (checker.mark start goal).Roomy automaton goal := by
  have shrinks : automaton.unexplored (fun _ => 1) ((checker.mark start goal).remembers goal) + 1 ≤
      automaton.unexplored (fun _ => 1) (checker.remembers goal) := by
    refine Automaton.unexplored_le _ (fun id known => ?_) (remembers_eq_false_iff.mpr unknown) ?_
      member
    · rw [remembers_mark, known, Bool.or_true]
    · rw [remembers_mark, beq_self_eq_true, Bool.true_or]
  show checker.memory.length + 1 + _ ≤ checker.limit
  exact Nat.le_trans (by omega) roomy

theorem Roomy.isFull_eq_false {checker : Checker} {automaton : Automaton} {start goal : StateId}
    (roomy : checker.Roomy automaton goal) (member : start ∈ automaton.ids)
    (unknown : checker.knownAnswer? start goal = none) : checker.isFull = false := by
  have further := roomy.mark member unknown
  have less : checker.memory.length + 1 ≤ checker.limit :=
    Nat.le_trans (Nat.le_add_right _ _) further
  rw [isFull, decide_eq_false_iff_not]
  omega

/-- The memory is about pairs of states of the automaton, and about none of them twice. -/
structure Tidy (checker : Checker) (automaton : Automaton) : Prop where
  nodup : checker.pairs.Nodup
  inside : ∀ pair ∈ checker.pairs, pair.1 ∈ automaton.ids ∧ pair.2 ∈ automaton.ids

theorem weightUnseen_one (seen : StateId → Bool) (ids : List StateId) :
    weightUnseen (fun _ => 1) seen ids = (ids.filter fun id => !seen id).length := by
  induction ids with
  | nil => rfl
  | cons id rest inductionHypothesis =>
    rw [weightUnseen, inductionHypothesis, List.filter_cons]
    cases seen id <;> simp [Nat.add_comm]

/-- An empty memory has room for a query if it has room for every state. -/
theorem roomy_of_memory_nil {checker : Checker} {automaton : Automaton} {goal : StateId}
    (empty : checker.memory = []) (enough : automaton.size ≤ checker.limit) :
    checker.Roomy automaton goal := by
  rw [Roomy, empty, List.length_nil, Nat.zero_add, Automaton.unexplored, weightUnseen_one]
  refine Nat.le_trans (List.length_filter_le _ _) ?_
  rwa [Automaton.length_ids]

/-- A memory with room for all pairs of states has room for every query. -/
theorem Tidy.roomy {checker : Checker} {automaton : Automaton} (tidy : checker.Tidy automaton)
    {goal : StateId} (member : goal ∈ automaton.ids)
    (enough : automaton.size * automaton.size ≤ checker.limit) :
    checker.Roomy automaton goal := by
  let missing : List (StateId × StateId) :=
    (automaton.ids.filter fun id => !checker.remembers goal id).map fun id => (id, goal)
  have missingNodup : missing.Nodup :=
    (automaton.nodup_ids.filter _).map fun first second same => congrArg Prod.fst same
  have nodup : (checker.pairs ++ missing).Nodup := by
    refine List.nodup_append.mpr ⟨tidy.nodup, missingNodup, ?_⟩
    rintro pair known other absent rfl
    obtain ⟨id, inFilter, rfl⟩ := List.mem_map.mp absent
    have unknown := (List.mem_filter.mp inFilter).2
    rw [Bool.not_eq_true', remembers_eq_false_iff, knownAnswer?_eq_none_iff] at unknown
    exact unknown known
  have inside : checker.pairs ++ missing ⊆ automaton.ids ×ˢ automaton.ids := by
    refine List.append_subset.mpr ⟨fun pair known => ?_, fun pair absent => ?_⟩
    · exact List.mem_product.mpr (tidy.inside pair known)
    · obtain ⟨id, inFilter, rfl⟩ := List.mem_map.mp absent
      exact List.mem_product.mpr ⟨(List.mem_filter.mp inFilter).1, member⟩
  have fits := (nodup.subperm inside).length_le
  rw [List.length_append, List.length_product, pairs, List.length_map, List.length_map] at fits
  rw [Automaton.length_ids] at fits
  rw [Roomy, Automaton.unexplored, weightUnseen_one]
  exact Nat.le_trans fits enough

/-- A full memory does not give the answer, either because there is room or because the default
answer is another one. -/
def Avoids (checker : Checker) (automaton : Automaton) (goal : StateId) (answer : Bool) : Prop :=
  checker.defaultAnswer ≠ answer ∨ checker.Roomy automaton goal

/-- Where an answer comes from if not from a full memory. -/
theorem Avoids.consult {checker : Checker} {automaton : Automaton} {start goal : StateId}
    {answer : Bool} (avoids : checker.Avoids automaton goal answer) (member : start ∈ automaton.ids)
    (consulted : (checker.consult start goal).answer? = some answer) :
    (start = goal ∧ answer = true) ∨
      (start ≠ goal ∧ checker.knownAnswer? start goal = some answer) := by
  unfold Checker.consult at consulted
  split at consulted
  · rename_i same
    exact Or.inl ⟨same, (Option.some.inj consulted).symm⟩
  · rename_i apart
    refine Or.inr ⟨apart, ?_⟩
    split at consulted
    · rename_i known
      rw [known]
      exact consulted
    · rename_i unknown
      split at consulted
      · rename_i full
        rcases avoids with otherwise | roomy
        · exact absurd (Option.some.inj consulted) otherwise
        · rw [roomy.isFull_eq_false member unknown] at full
          cases full
      · cases consulted

theorem knownAnswer?_of_unanswered {checker : Checker} {start goal : StateId}
    (unanswered : (checker.consult start goal).answer? = none) :
    start ≠ goal ∧ checker.knownAnswer? start goal = none := by
  refine ⟨?_, remembers_eq_false_iff.mp (remembers_eq_false_of_consult unanswered)⟩
  rintro rfl
  simp [consult] at unanswered

theorem consult_settings (checker : Checker) (start goal : StateId) :
    (checker.consult start goal).checker.limit = checker.limit ∧
      (checker.consult start goal).checker.defaultAnswer = checker.defaultAnswer := by
  unfold consult
  split
  · exact ⟨rfl, rfl⟩
  · split
    · exact ⟨rfl, rfl⟩
    · split <;> exact ⟨rfl, rfl⟩

end Checker

end PatternGraph
