/-
This file proves that glue answers for its owner. A glue state names its owner by a handle that
nothing checks, and the handle of a lookaround is even foretold, since the glue on the way into it
is added first. But in all automata that a run leads to the owner is a tree node, of the one kind or
the two that have such glue. So a question that the glue passes on to its owner ends there: the
flags are those of the owner, and where glue has no continuation of its own it continues as the
owner does. As long as the owner is not linked, the complaint names the owner.

That nothing but the final state is followed by nothing then needs no more than a look at each kind
of state.
-/

import PatternGraph.Proofs.Linking.Glue
import PatternGraph.Proofs.Owners

namespace PatternGraph

namespace State

/-- The kinds of node that have such glue. -/
def ownerKinds : State → List Kind
  | .branch .. => [.repetition, .conditionalSubpatterns]
  | .endOfRepetition .. => [.repetition]
  | .endOfCapturingGroup _ => [.capturingGroup]
  | .endOfLookaround _ | .negation .. | .startOfLookBehind .. => [.lookAround]
  | .endOfConditional _ => [.conditionalSubpatterns]
  | .tree _ | .start .. | .final _ => []

theorem Joins.kind_mem {state : State} {id owner : StateId} {treeNode : TreeNode}
    (joins : state.Joins id owner treeNode) : treeNode.node.kind ∈ state.ownerKinds := by
  cases state with
  | branch _ choices =>
    obtain ⟨continuation, -, chooses⟩ := joins
    cases content : treeNode.node with
    | repetition element quantifier => simp [ownerKinds, Node.kind]
    | conditional condition yes bar no => simp [ownerKinds, Node.kind]
    | _ =>
      rw [content] at chooses
      exact chooses.elim
  | endOfRepetition _ next => exact List.mem_singleton.mpr joins.2
  | endOfCapturingGroup _ | endOfLookaround _ | endOfConditional _ =>
    exact List.mem_singleton.mpr joins
  | negation _ content =>
    obtain ⟨body, direction, entry, isLookAround, -⟩ := joins
    simp [ownerKinds, isLookAround, Node.kind]
  | startOfLookBehind _ content =>
    obtain ⟨body, polarity, isLookAround⟩ := joins
    simp [ownerKinds, isLookAround, Node.kind]
  | tree _ | start _ _ | final _ => exact joins.elim

end State

namespace Automaton

/-- The state answers for its owner, which is a tree node of a kind that has such glue. -/
structure AnswersFor (automaton : Automaton) (id owner : StateId) (state : State)
    (treeNode : TreeNode) : Prop where
  isTree : automaton.tree? owner = some treeNode
  kind : treeNode.node.kind ∈ state.ownerKinds
  flags : automaton.flags id = automaton.flags owner
  ownFlags : automaton.flags owner = .ok treeNode.flags
  continuation : state.borrowsContinuation →
    automaton.continuation id = automaton.continuation owner
  unset : state.borrowsContinuation → treeNode.continuation = none →
    automaton.continuation id = .error (.notLinked owner)

/-- All glue that has an owner answers for it, and nothing follows the final state only. -/
structure AnswersForOwners (automaton : Automaton) : Prop where
  glue {id owner : StateId} {state : State} : automaton.state? id = some state →
    state.owner? = some owner → ∃ treeNode, automaton.AnswersFor id owner state treeNode
  last {id : StateId} : automaton.continuation id = .ok none ↔
    ∃ flags, automaton.state? id = some (.final flags)

section

variable {automaton : Automaton} {id owner : StateId} {state : State} {treeNode : TreeNode}

/-- Glue that joins a tree node answers for it. -/
theorem answersFor_of_joins (found : automaton.state? id = some state)
    (owned : state.owner? = some owner) (isTree : automaton.tree? owner = some treeNode)
    (joins : state.Joins id owner treeNode) : automaton.AnswersFor id owner state treeNode where
  isTree := isTree
  kind := joins.kind_mem
  flags := flags_of_owner? found owned isTree
  ownFlags := flags_of_tree? isTree
  continuation borrows := continuation_of_borrows found owned borrows isTree
  unset borrows unset :=
    (continuation_of_borrows found owned borrows isTree).trans (continuation_of_unset isTree unset)

end

theorem GlueOwned.answersForOwners {automaton : Automaton} (glue : automaton.GlueOwned) :
    automaton.AnswersForOwners where
  glue found owned := by
    obtain ⟨treeNode, isTree, joins⟩ := glue found _ owned
    exact ⟨treeNode, answersFor_of_joins found owned isTree joins⟩
  last := continuation_eq_none_iff fun found owned => by
    obtain ⟨treeNode, isTree, -⟩ := glue found _ owned
    exact ⟨treeNode, isTree⟩

/-- Wherever a run leads to, and in what finishing makes of it, glue answers for its owner. -/
theorem glue_answers_for_owner {source : Source} {calls : List Call}
    (performed : ((ofSource source).performAll calls).answer = .ok ()) :
    let built := ((ofSource source).performAll calls).automaton
    built.AnswersForOwners ∧ ∀ root flags pattern,
      (built.finish root flags).answer = .ok pattern → pattern.automaton.AnswersForOwners := by
  intro built
  have owned : built.GlueOwned := glueOwned_performAll performed
  exact ⟨owned.answersForOwners, fun _ _ _ answered => (owned.finish answered).answersForOwners⟩

/-- The calls that build `(?<!a)`. -/
def lookbehindCalls : List Call :=
  [.construct ⟨⟨4, 5⟩, .empty, .leaf (.character ⟨97, false⟩)⟩,
    .construct ⟨⟨0, 6⟩, .empty, .lookAround .negative .behind ⟨0⟩⟩]

/-- Until `(?<!a)` is finished, asking its end what follows is answered with a complaint about the
lookbehind. -/
theorem lookbehind_glue_answers_for_owner :
    let built := ((ofSource ⟨"(?<!a)", .java, []⟩).performAll lookbehindCalls).automaton
    built.AnswersForOwners ∧ built.continuation ⟨4⟩ = .error (.notLinked ⟨3⟩) ∧
      ∃ pattern, (built.finish ⟨3⟩ .empty).answer = .ok pattern ∧
        pattern.automaton.AnswersForOwners := by
  intro built
  obtain ⟨unfinished, finished⟩ := @glue_answers_for_owner ⟨"(?<!a)", .java, []⟩ lookbehindCalls
    (by decide +kernel)
  have complaint : built.continuation ⟨4⟩ = .error (.notLinked ⟨3⟩) := by decide +kernel
  have answers : (built.finish ⟨3⟩ .empty).answer.toOption.isSome := by decide +kernel
  obtain ⟨pattern, answered⟩ := exists_of_isSome_toOption answers
  exact ⟨unfinished, complaint, pattern, answered, finished _ _ _ answered⟩

end Automaton

end PatternGraph
