/-
This file answers whether one state can be reached from another along successors, and remembers the
answers. A `Checker` keeps them by pair of handles, so the memory belongs to no particular automaton
and outlives every query; it is bounded, and a query that would need a new entry once the memory is
full gets the default answer of the checker instead.

A query is a depth-first search for the goal. A pair is entered into the memory as unreachable when
its start is expanded, before its successors are looked at, so a loop comes back to an entry that
sends it away. The frames of the search are the states that are being expanded, the innermost first,
each with the successors still to be looked at. As soon as one successor is answered with yes, so is
every state on the frames; a state whose successors are exhausted keeps its entry.
-/

import PatternGraph.LogRecord
import PatternGraph.Reach.Frontier

namespace PatternGraph

/-- The remembered answer of a query. -/
structure Reachability where
  start : StateId
  goal : StateId
  answer : Bool
  deriving DecidableEq

/-- The memory of reachability queries. -/
structure Checker where
  /-- The answer to what is not known once the memory is full. -/
  defaultAnswer : Bool
  /-- The number of entries at which the memory is full. -/
  limit : Nat
  memory : List Reachability := []
  /-- Whether the full memory was reported since it was last cleared. -/
  warned : Bool := false
  deriving DecidableEq

/-- A state under expansion and its successors that were not looked at yet. -/
structure Frame where
  state : StateId
  remaining : List StateId
  deriving DecidableEq

/-- The answer of a query, the checker it left and the records it gave rise to. -/
structure Search where
  answer : Except Fault Bool
  checker : Checker
  records : List LogRecord

/-- The same search after some records. -/
def Search.after (search : Search) (records : List LogRecord) : Search :=
  { search with records := records ++ search.records }

/-- What a checker says to a pair without searching, `none` when it has to search. -/
structure Consultation where
  answer? : Option Bool
  checker : Checker
  records : List LogRecord

namespace Checker

/-- The number of entries that a checker keeps unless it is told otherwise. -/
def defaultLimit : Nat := 5000

/-- A checker that knows nothing yet. -/
def withLimit (defaultAnswer : Bool) (limit : Nat) : Checker := { defaultAnswer, limit }

/-- Forgets every answer, and that the memory was ever full. -/
def clear (checker : Checker) : Checker := { checker with memory := [], warned := false }

/-- The remembered answer for a pair. -/
def knownAnswer? (checker : Checker) (start goal : StateId) : Option Bool :=
  (checker.memory.find? fun entry => entry.start == start && entry.goal == goal).map
    Reachability.answer

/-- Whether a pair has an entry. -/
def remembers (checker : Checker) (goal start : StateId) : Bool :=
  (checker.knownAnswer? start goal).isSome

def isFull (checker : Checker) : Bool := checker.limit ≤ checker.memory.length

/-- Enters a pair as unreachable until it is known better. -/
def mark (checker : Checker) (start goal : StateId) : Checker :=
  { checker with memory := ⟨start, goal, false⟩ :: checker.memory }

/-- Turns the entries of the given starts into yes. -/
def settle (checker : Checker) (goal : StateId) (starts : List StateId) : Checker :=
  { checker with
    memory := checker.memory.map fun entry =>
      if entry.goal == goal && starts.contains entry.start then { entry with answer := true }
      else entry }

/-- The warning about a full memory. -/
def fullRecord (checker : Checker) : LogRecord where
  level := .warn
  message := "reachability cache full at " ++ toString checker.limit ++ " entries, answering " ++
    toString checker.defaultAnswer

/-- Asks for a pair without searching. A state reaches itself; what is remembered is answered from
the memory; when the memory is full everything else gets the default answer, with a warning the
first time. -/
def consult (checker : Checker) (start goal : StateId) : Consultation :=
  if start = goal then ⟨some true, checker, []⟩
  else match checker.knownAnswer? start goal with
    | some answer => ⟨some answer, checker, []⟩
    | none =>
      if checker.isFull then
        ⟨some checker.defaultAnswer, { checker with warned := true },
          if checker.warned then [] else [checker.fullRecord]⟩
      else ⟨none, checker, []⟩

/-! ### What clearing, a consultation and an entry do to the memory -/

/-- A cleared checker remembers nothing. -/
@[simp]
theorem memory_clear (checker : Checker) : checker.clear.memory = [] := rfl

/-- A cleared checker reports anew that its memory is full. -/
@[simp]
theorem warned_clear (checker : Checker) : checker.clear.warned = false := rfl

@[simp]
theorem limit_clear (checker : Checker) : checker.clear.limit = checker.limit := rfl

@[simp]
theorem defaultAnswer_clear (checker : Checker) :
    checker.clear.defaultAnswer = checker.defaultAnswer := rfl

theorem consult_memory (checker : Checker) (start goal : StateId) :
    (checker.consult start goal).checker.memory = checker.memory := by
  unfold consult
  split
  · rfl
  · split
    · rfl
    · split <;> rfl

theorem remembers_of_memory {first second : Checker} (same : first.memory = second.memory)
    (goal : StateId) : first.remembers goal = second.remembers goal := by
  funext start
  simp [remembers, knownAnswer?, same]

theorem remembers_eq_false_of_consult {checker : Checker} {start goal : StateId}
    (unanswered : (checker.consult start goal).answer? = none) :
    checker.remembers goal start = false := by
  unfold consult at unanswered
  split at unanswered
  · cases unanswered
  · split at unanswered
    · cases unanswered
    · rename_i unknown
      simp [remembers, unknown]

@[simp]
theorem remembers_mark (checker : Checker) (start goal other : StateId) :
    (checker.mark start goal).remembers goal other =
      (start == other || checker.remembers goal other) := by
  simp only [remembers, knownAnswer?, mark, List.find?_cons]
  cases same : start == other <;> simp

/-- The work left in the frames of a search. -/
def pendingWork : List Frame → Nat
  | [] => 0
  | frame :: rest => frame.remaining.length + 1 + pendingWork rest

/-- The measure of a search: the states whose pair has no entry and the successors waiting in the
frames. -/
def work (checker : Checker) (automaton : Automaton) (goal : StateId) (frames : List Frame) : Nat :=
  automaton.unexplored (fun id => automaton.fanOut id + 1) (checker.remembers goal) +
    pendingWork frames

theorem work_mark_lt {checker : Checker} {automaton : Automaton} {start goal : StateId}
    {next : List StateId} (unanswered : (checker.consult start goal).answer? = none)
    (found : automaton.successors start = .ok next) (frames : List Frame) :
    (checker.mark start goal).work automaton goal (⟨start, next⟩ :: frames) ≤
      checker.work automaton goal frames := by
  have grows (id : StateId) (known : checker.remembers goal id = true) :
      (checker.mark start goal).remembers goal id = true := by
    simp [known]
  have shrinks := Automaton.unexplored_le (fun id => automaton.fanOut id + 1) grows
    (remembers_eq_false_of_consult unanswered) (by simp)
    (Automaton.mem_ids_of_successors found)
  simp only [Automaton.fanOut_of_successors found] at shrinks
  simp only [work, pendingWork]
  omega

/-- Continues a search whose frames are given. -/
def descend (automaton : Automaton) (goal : StateId) (checker : Checker) (frames : List Frame) :
    Search :=
  match frames with
  | [] => ⟨.ok false, checker, []⟩
  | ⟨_, []⟩ :: outer => descend automaton goal checker outer
  | ⟨state, successor :: remaining⟩ :: outer =>
    let consulted := checker.consult successor goal
    match _consulted : consulted.answer? with
    | some true =>
      let starts := state :: outer.map Frame.state
      ⟨.ok true, consulted.checker.settle goal starts, consulted.records⟩
    | some false =>
      (descend automaton goal consulted.checker (⟨state, remaining⟩ :: outer)).after
        consulted.records
    | none =>
      match _found : automaton.successors successor with
      | .error fault => ⟨.error fault, checker.mark successor goal, []⟩
      | .ok next =>
        descend automaton goal (checker.mark successor goal)
          (⟨successor, next⟩ :: ⟨state, remaining⟩ :: outer)
termination_by checker.work automaton goal frames
decreasing_by
  · simp [work, pendingWork]
  · simp only [work, pendingWork,
      remembers_of_memory (consult_memory checker successor goal), List.length_cons]
    omega
  · have entered := work_mark_lt _consulted _found (⟨state, remaining⟩ :: outer)
    simp only [work, pendingWork, List.length_cons] at entered ⊢
    omega

/-- Whether the goal can be reached from the start along successors. -/
def canReach (checker : Checker) (automaton : Automaton) (start goal : StateId) : Search :=
  let consulted := checker.consult start goal
  match consulted.answer? with
  | some answer => ⟨.ok answer, consulted.checker, consulted.records⟩
  | none =>
    match automaton.successors start with
    | .error fault => ⟨.error fault, checker.mark start goal, []⟩
    | .ok next => descend automaton goal (checker.mark start goal) [⟨start, next⟩]

end Checker

end PatternGraph
