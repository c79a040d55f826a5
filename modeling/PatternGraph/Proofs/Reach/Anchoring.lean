/-
This file proves that a pattern is anchored at its end exactly if its syntax tree is. A leaf is
anchored if it is a boundary at the end of a line or of the input, a sequence if one of its items
is, and a disjunction if all alternatives are. What may be skipped anchors nothing, and neither does
the content of a lookaround.

A tree is anchored if it cannot be passed on states that are no end boundaries. The walk stops at
end boundaries and looks for the final state, and what it finds does not depend on loops or on the
states that paths share: it is whether an open path of such states leads to the final state.
-/

import PatternGraph.Proofs.Enclosure
import PatternGraph.Proofs.Language.Passing
import PatternGraph.Proofs.Reach.Sweep

namespace PatternGraph

/-! ### Anchored trees -/

/-- Whether a leaf is a boundary at the end of a line or of the input. -/
def Leaf.isEndBoundary : Leaf → Bool
  | .boundary asserted => asserted.isEnd
  | _ => false

/-- Whether every way through a node meets an end boundary, given whether that holds of the
children. A group has at most one child, and without one it is not anchored. -/
def Node.isAnchored (node : Node) (children : List Bool) : Bool :=
  match node with
  | .leaf content => content.isEndBoundary
  | .sequence _ | .capturingGroup .. | .nonCapturingGroup .. | .atomicGroup _ => children.or
  | .disjunction .. => children.and
  | .lookAround .. | .conditional .. => false
  | .repetition _ quantifier => decide (1 ≤ quantifier.minimum) && children.or

/-- Whether every way through a tree meets an end boundary. -/
def SyntaxTree.isAnchored : SyntaxTree → Bool := evaluate Node.isAnchored

theorem not_or_eq_and (values : List Bool) : (!values.or) = (values.map not).and := by
  simp [List.and, List.or, List.not_any_eq_all_not]

theorem not_and_eq_or (values : List Bool) : (!values.and) = (values.map not).or := by
  simp [List.and, List.or, List.not_all_eq_any_not]

/-- A node is anchored if it cannot be passed without meeting an end boundary. -/
theorem Node.not_isAnchored (node : Node) (children : List Bool) :
    (!node.isAnchored children) =
      node.passes (fun leaf => !leaf.isEndBoundary) (children.map not) := by
  cases node with
  | leaf content => rfl
  | disjunction alternatives bars => exact not_and_eq_or children
  | repetition element quantifier =>
    rw [isAnchored, passes, Bool.not_and, not_or_eq_and]
    cases quantifier.minimum <;> simp
  | sequence _ | capturingGroup _ _ _ | nonCapturingGroup _ _ _ | atomicGroup _ =>
    exact not_or_eq_and children
  | lookAround _ _ _ _ | conditional _ _ _ _ => rfl

theorem SyntaxTree.isAnchored_eq_false_iff (tree : SyntaxTree) :
    tree.isAnchored = false ↔ tree.passes (fun leaf => !leaf.isEndBoundary) = true := by
  rw [← Bool.not_eq_true']
  exact Bool.eq_iff_iff.mp (translate_evaluate Node.not_isAnchored tree)

namespace Automaton

/-- The states that are no end boundaries are known of the leaves. -/
theorem opens_isUnanchored (automaton : Automaton) :
    automaton.Opens (fun leaf => !leaf.isEndBoundary) automaton.IsUnanchored where
  leaf_iff {id treeNode content} isTree isLeaf := by
    rw [isUnanchored_iff (tree?_eq_some_iff.mp isTree), State.tree?, Option.map_some, isLeaf]
    cases content <;> simp [Leaf.isEndBoundary]
  inner isTree noLeaf := by
    rw [isUnanchored_iff (tree?_eq_some_iff.mp isTree)]
    exact fun asserted same => absurd (Option.some.inj same) (noLeaf (.boundary asserted))
  glue found isGlue _ := by
    rw [isUnanchored_iff found, isGlue]
    intro asserted same
    cases same
  silent {content} silent := by
    cases content with
    | referenceCondition reference => rfl
    | _ => cases silent

end Automaton

/-- A finished pattern is anchored at its end if its syntax tree is, and only then. -/
theorem isAnchoredAtEnd_eq_isAnchored {pattern : Pattern} (finished : pattern.Finished) :
    ∃ tree, pattern.automaton.fullTree pattern.root = .ok tree ∧
      pattern.automaton.isAnchoredAtEnd pattern.start = .ok tree.isAnchored := by
  have sound := finished.sound
  obtain ⟨flags, finalHeld⟩ := sound.finalHeld
  obtain ⟨tree, unfolds, same, described⟩ := sound.isTree.unfolds
  have opens := Automaton.opens_isUnanchored pattern.automaton
  obtain ⟨answer, answered, no_iff⟩ :=
    Automaton.exists_isAnchoredAtEnd (sound.linkedFrom sound.outside_start)
  have agrees : answer = false ↔ tree.isAnchored = false := by
    rw [no_iff, tree.isAnchored_eq_false_iff]
    constructor
    · rintro ⟨final, isFinal, path⟩
      obtain ⟨otherFlags, held⟩ := Automaton.exists_final_of_isFinal isFinal
      exact sound.passes_of_openPath described same opens held path
    · intro passes
      exact ⟨pattern.final, Automaton.isFinal_of_state? finalHeld,
        sound.openPath described same opens passes⟩
  refine ⟨tree, unfolds, answered.trans (congrArg _ ?_)⟩
  rw [Bool.eq_iff_iff, ← not_iff_not, Bool.not_eq_true, Bool.not_eq_true]
  exact agrees

/-- The calls that build `(a$|b\z)+(?=c)`. -/
def anchoredCalls : List Call :=
  let character (beginning : Int) (codePoint : Nat) : Call :=
    .construct ⟨⟨beginning, beginning + 1⟩, .empty, .leaf (.character ⟨codePoint, false⟩)⟩
  [character 1 97, .construct ⟨⟨2, 3⟩, .empty, .leaf (.boundary .lineEnd)⟩,
    .construct ⟨⟨1, 3⟩, .empty, .sequence [⟨0⟩, ⟨1⟩]⟩,
    character 4 98, .construct ⟨⟨5, 7⟩, .empty, .leaf (.boundary .inputEnd)⟩,
    .construct ⟨⟨4, 7⟩, .empty, .sequence [⟨3⟩, ⟨4⟩]⟩,
    .construct ⟨⟨1, 7⟩, .empty, .disjunction [⟨2⟩, ⟨5⟩] [⟨⟨3, 4⟩, '|', false⟩]⟩,
    .construct ⟨⟨0, 8⟩, .empty, .capturingGroup none 1 ⟨6⟩⟩,
    .construct ⟨⟨0, 9⟩, .empty, .repetition ⟨7⟩ ⟨⟨8, 9⟩, .greedy, .sign .plus⟩⟩,
    character 12 99,
    .construct ⟨⟨9, 14⟩, .empty, .lookAround .positive .ahead ⟨10⟩⟩,
    .construct ⟨⟨0, 14⟩, .empty, .sequence [⟨9⟩, ⟨11⟩]⟩]

/-- The pattern `(a$|b\z)+(?=c)`. -/
def anchoredPattern? : Option Pattern :=
  finishedPattern? ⟨"(a$|b\\z)+(?=c)", .java, []⟩ anchoredCalls ⟨15⟩ .empty

/-- In `(a$|b\z)+(?=c)` both alternatives are anchored, and the loop has to be entered. -/
theorem anchored_isAnchoredAtEnd_eq_isAnchored :
    ∃ pattern tree, anchoredPattern? = some pattern ∧
      pattern.automaton.fullTree pattern.root = .ok tree ∧
      pattern.automaton.isAnchoredAtEnd pattern.start = .ok tree.isAnchored ∧
      tree.isAnchored = true := by
  have computed : (anchoredPattern?.map fun pattern =>
      pattern.automaton.isAnchoredAtEnd pattern.start) = some (.ok true) := by decide +kernel
  obtain ⟨pattern, built, answered⟩ := Option.map_eq_some_iff.mp computed
  obtain ⟨tree, unfolds, same⟩ :=
    isAnchoredAtEnd_eq_isAnchored (finished_of_finishedPattern? built)
  exact ⟨pattern, tree, built, unfolds, same, Except.ok.inj (same.symm.trans answered)⟩

end PatternGraph
