/-
This file says to which states the automaton moves from a state of each kind, given what linking has
settled. A node with something inside moves into it, and every other node moves to what follows it;
glue at the end of a node moves on to what follows its owner, since that is where the owner keeps
its continuation.
-/

import PatternGraph.Automaton.Successors
import PatternGraph.Proofs.Linking.Step
import PatternGraph.Proofs.Owners

namespace PatternGraph

namespace Automaton

/-- The automaton may move from one state to the other. -/
def Moves (automaton : Automaton) (id next : StateId) : Prop :=
  ∃ nexts, automaton.successors id = .ok nexts ∧ next ∈ nexts

instance (automaton : Automaton) (id next : StateId) : Decidable (automaton.Moves id next) :=
  match offered : automaton.successors id with
  | .ok nexts => decidable_of_iff (next ∈ nexts)
      ⟨fun member => ⟨nexts, offered, member⟩, fun ⟨_, offeredToo, member⟩ => by
        cases offered.symm.trans offeredToo
        exact member⟩
  | .error _ => .isFalse fun ⟨_, offeredToo, _⟩ => by cases offered.symm.trans offeredToo

theorem transition_of_state? {automaton : Automaton} {id : StateId} {state : State}
    (found : automaton.state? id = some state) :
    automaton.transition id = .ok state.transition := by
  rw [transition, state_eq_ok_iff.mpr found]
  rfl

/-! ### Nodes -/

section

variable {automaton : Automaton} {id next : StateId} {treeNode : TreeNode}
  (isTree : automaton.tree? id = some treeNode)

include isTree

theorem successors_of_tree? : automaton.successors id = treeNode.successors := by
  rw [successors, state, tree?_eq_some_iff.mp isTree]
  rfl

/-- A node that stores its continuation and has nothing to move into is left at once. -/
theorem successors_of_exit (continues : treeNode.continuation = some next)
    (leaves : treeNode.successors = treeNode.exit.map fun after => [after]) :
    automaton.successors id = .ok [next] := by
  rw [successors_of_tree? isTree, leaves, TreeNode.exit, continues]
  rfl

/-- A sequence moves into its first item, or to its continuation if it has none. -/
theorem successors_sequence {items : List StateId} (content : treeNode.node = .sequence items)
    (continues : treeNode.continuation = some next) :
    automaton.successors id = .ok [items.headD next] := by
  cases items with
  | nil => exact successors_of_exit isTree continues (by rw [TreeNode.successors, content])
  | cons first rest =>
    rw [successors_of_tree? isTree, TreeNode.successors, content]
    rfl

theorem successors_repetition {element close : StateId} {quantifier : Quantifier}
    (content : treeNode.node = .repetition element quantifier)
    (continues : treeNode.continuation = some close) :
    automaton.successors id = .ok
      (if 0 < quantifier.minimum then [element]
      else if quantifier.maximum = some 0 then [close]
      else if quantifier.isReluctant then [close, element]
      else [element, close]) := by
  rw [successors_of_tree? isTree, TreeNode.successors, content]
  simp only [TreeNode.exit, continues, Except.map]
  by_cases required : 0 < quantifier.minimum
  · rw [if_pos required, if_pos required]
  · rw [if_neg required, if_neg required]

theorem successors_lookAround {body : GroupBody} {polarity : Polarity} {direction : Direction}
    {entry : StateId} (content : treeNode.node = .lookAround body polarity direction entry)
    (continues : treeNode.continuation = some next) :
    automaton.successors id = .ok [entry, next] := by
  rw [successors_of_tree? isTree, TreeNode.successors, content]
  simp only [TreeNode.exit, continues, Except.map]

end

/-! ### Glue -/

section

variable {automaton : Automaton} {id : StateId}

theorem successors_branch {owner : StateId} {choices : List StateId}
    (found : automaton.state? id = some (.branch owner choices)) :
    automaton.successors id = .ok choices := by
  rw [successors, state, found]
  rfl

/-- Any other glue state moves to what it continues to. -/
theorem successors_glue {state : State} (found : automaton.state? id = some state)
    (glue : state.tree? = none) (notBranch : ∀ owner choices, state ≠ .branch owner choices) :
    automaton.successors id = (automaton.continuation id).map Option.toList := by
  rw [successors, Automaton.state, found]
  cases state with
  | tree treeNode => cases glue
  | branch owner choices => exact absurd rfl (notBranch owner choices)
  | _ => rfl

/-- Glue that was added with a continuation moves to it. -/
theorem successors_of_own {state : State} {next : StateId}
    (found : automaton.state? id = some state) (own : state.ownContinuation? = some next) :
    automaton.successors id = .ok [next] := by
  have glue : state.tree? = none := by cases state <;> first | rfl | cases own
  have notBranch (owner : StateId) (choices : List StateId) : state ≠ .branch owner choices := by
    rintro rfl
    cases own
  rw [successors_glue found glue notBranch, continuation_of_own found own]
  rfl

theorem successors_of_final {flags : FlagSet} (found : automaton.state? id = some (.final flags)) :
    automaton.successors id = .ok [] := by
  rw [successors_glue found rfl (by simp), continuation_of_final found]
  rfl

section

variable {owner next : StateId} {treeNode : TreeNode} {state : State}
  (found : automaton.state? id = some state)
  (ends : state = .endOfCapturingGroup owner ∨ state = .endOfLookaround owner ∨
    state = .endOfConditional owner)
  (isTree : automaton.tree? owner = some treeNode) (continues : treeNode.continuation = some next)

include found ends isTree continues

/-- The end of a capturing group, a lookaround or a conditional borrows the continuation of its
owner. -/
theorem continuation_endOf : automaton.continuation id = .ok (some next) := by
  have owned : state.owner? = some owner := by rcases ends with rfl | rfl | rfl <;> rfl
  have borrows : state.borrowsContinuation := by rcases ends with rfl | rfl | rfl <;> rfl
  rw [continuation_of_borrows found owned borrows isTree, continuation_of_stored isTree continues]

/-- So it moves to what follows its owner. -/
theorem successors_endOf : automaton.successors id = .ok [next] := by
  have borrowed := continuation_endOf found ends isTree continues
  rcases ends with rfl | rfl | rfl <;>
    · rw [successors_glue found rfl (by simp), borrowed]
      rfl

end

end

end Automaton

end PatternGraph
