/-
This file proves that the final state can be reached from the start without consuming input exactly
if the pattern is nullable, which is read off its syntax tree. A leaf is nullable if it stands for
no input: a boundary or the condition of a conditional.

The walk may also enter a line break that an end boundary leaves unconsumed. If there are no such
boundaries below the root, none can be met, because everything that can be reached from the start is
a node below the root or glue. Then the walk makes free moves only, and those make up the open paths
of the states that are entered freely.
-/

import PatternGraph.Proofs.Enclosure
import PatternGraph.Proofs.Language.Passing
import PatternGraph.Proofs.Reach.Consumption

namespace PatternGraph

open Relation

/-! ### Nullable trees -/

/-- Whether a leaf stands for no input. -/
def Leaf.isNullable : Leaf → Bool
  | .boundary _ | .referenceCondition _ => true
  | .character _ | .dot | .escapedClass _ | .characterClass _ | .miscEscape | .backReference _ =>
    false

/-- Whether a tree can be passed without consuming input. -/
def SyntaxTree.isNullable : SyntaxTree → Bool := passes Leaf.isNullable

namespace Automaton

section

variable {automaton : Automaton} {start goal id : StateId}

theorem entersFreely_iff {state : State} (found : automaton.state? id = some state) :
    automaton.EntersFreely id ↔ state.transition = .epsilon ∨ state.transition = .negation := by
  rw [EntersFreely, transition_of_state? found, Except.ok.injEq, Except.ok.injEq]

/-- The states that are entered freely are known of the leaves. -/
theorem opens_entersFreely (automaton : Automaton) :
    automaton.Opens Leaf.isNullable automaton.EntersFreely where
  leaf_iff {id treeNode content} isTree isLeaf := by
    rw [entersFreely_iff (tree?_eq_some_iff.mp isTree), State.transition, isLeaf, Node.transition]
    cases content <;> simp [Leaf.transition, Leaf.isNullable]
  inner {id treeNode} isTree noLeaf := by
    rw [entersFreely_iff (tree?_eq_some_iff.mp isTree), State.transition]
    cases content : treeNode.node with
    | leaf leaf => exact absurd content (noLeaf leaf)
    | _ => exact Or.inl rfl
  glue found _ empty := (entersFreely_iff found).mpr (Or.inl empty)
  silent {content} silent := by
    cases content with
    | referenceCondition reference => rfl
    | _ => cases silent

/-! ### Free moves -/

/-- Free moves from an open state follow an open path. -/
theorem openPath_of_freely (startOpen : automaton.EntersFreely start)
    (path : ReflTransGen (automaton.MovesFreely false) start goal) :
    automaton.OpenPath automaton.EntersFreely start goal ∧ automaton.EntersFreely goal := by
  induction path with
  | refl => exact ⟨.refl, startOpen⟩
  | tail _ step inductionHypothesis =>
    obtain ⟨openPath, isOpen⟩ := inductionHypothesis
    exact ⟨openPath.tail ⟨isOpen, step.1.2⟩, step.2⟩

/-- An open path to an open state consists of free moves. -/
theorem freely_of_openPath (path : automaton.OpenPath automaton.EntersFreely start goal)
    (goalOpen : automaton.EntersFreely goal) :
    ReflTransGen (automaton.MovesFreely false) start goal := by
  induction path with
  | refl => exact .refl
  | tail _ step inductionHypothesis =>
    exact (inductionHypothesis step.1).tail ⟨⟨nofun, step.2⟩, goalOpen⟩

end

end Automaton

/-! ### Finished patterns -/

/-- An end boundary that the walk can meet is a node below the root. -/
theorem Pattern.Sound.not_meetsBoundary {pattern : Pattern} (sound : pattern.Sound)
    (lacks : ∀ id, pattern.automaton.Below pattern.root id →
      pattern.automaton.allowsLineBreak id = false) :
    ¬ pattern.automaton.MeetsBoundary false pattern.start := by
  rintro ⟨boundary, path, -, allows⟩
  have reaches : pattern.automaton.Reaches pattern.start boundary :=
    ReflTransGen.mono (fun _ _ step => (And.left step).2) _ _ path
  cases sound.outside_of_reaches sound.outside_start reaches with
  | node unenclosed => cases allows.symm.trans (lacks boundary unenclosed.below)
  | glue isGlue _ _ =>
    rw [Automaton.allowsLineBreak, Automaton.boundary?, isGlue] at allows
    cases allows

/-- Without boundaries `$` and `\Z` below the root, the final state can be reached from the start
without consuming input if the syntax tree is nullable, and only then. -/
theorem canReachWithoutConsuming_eq_isNullable {pattern : Pattern} (finished : pattern.Finished)
    (lacks : ∀ id, pattern.automaton.Below pattern.root id →
      pattern.automaton.allowsLineBreak id = false) :
    ∃ tree, pattern.automaton.fullTree pattern.root = .ok tree ∧
      pattern.automaton.canReachWithoutConsuming pattern.start pattern.final =
        .ok tree.isNullable := by
  have sound := finished.sound
  obtain ⟨flags, finalHeld⟩ := sound.finalHeld
  obtain ⟨startFlags, startHeld⟩ := sound.startHeld
  obtain ⟨tree, unfolds, same, described⟩ := sound.isTree.unfolds
  have opens := Automaton.opens_entersFreely pattern.automaton
  have between : pattern.automaton.AnswersBetween false pattern.start pattern.final
      (pattern.automaton.canReachWithoutConsuming pattern.start pattern.final) :=
    Automaton.answersBetween_walk (sound.linkedFrom sound.outside_start) Automaton.exploring_start
  obtain ⟨answer, answered, complete, found⟩ := between
  have agrees : answer = true ↔ tree.isNullable = true := by
    constructor
    · intro yes
      have path := Automaton.freely_of_possible (sound.not_meetsBoundary lacks) (found yes)
      exact sound.passes_of_openPath described same opens finalHeld
        (Automaton.openPath_of_freely (opens.glue startHeld rfl rfl) path).1
    · intro nullable
      have path := sound.openPath described same opens nullable
      exact complete (Automaton.sure_of_freely
        (Automaton.freely_of_openPath path (opens.glue finalHeld rfl rfl)))
  exact ⟨tree, unfolds, answered.trans (congrArg _ (Bool.eq_iff_iff.mpr agrees))⟩

/-- The calls that build `(^|a)+(?=b)c?`. -/
def skippableCalls : List Call :=
  let character (beginning : Int) (codePoint : Nat) : Call :=
    .construct ⟨⟨beginning, beginning + 1⟩, .empty, .leaf (.character ⟨codePoint, false⟩)⟩
  [.construct ⟨⟨1, 2⟩, .empty, .leaf (.boundary .lineStart)⟩, character 3 97,
    .construct ⟨⟨1, 4⟩, .empty, .disjunction [⟨0⟩, ⟨1⟩] [⟨⟨2, 3⟩, '|', false⟩]⟩,
    .construct ⟨⟨0, 5⟩, .empty, .capturingGroup none 1 ⟨2⟩⟩,
    .construct ⟨⟨0, 6⟩, .empty, .repetition ⟨3⟩ ⟨⟨5, 6⟩, .greedy, .sign .plus⟩⟩,
    character 9 98,
    .construct ⟨⟨6, 11⟩, .empty, .lookAround .positive .ahead ⟨6⟩⟩,
    character 11 99,
    .construct ⟨⟨11, 13⟩, .empty, .repetition ⟨9⟩ ⟨⟨12, 13⟩, .greedy, .sign .questionMark⟩⟩,
    .construct ⟨⟨0, 13⟩, .empty, .sequence [⟨5⟩, ⟨7⟩, ⟨10⟩]⟩]

/-- The pattern `(^|a)+(?=b)c?`. -/
def skippablePattern? : Option Pattern :=
  finishedPattern? ⟨"(^|a)+(?=b)c?", .java, []⟩ skippableCalls ⟨13⟩ .empty

/-- In `(^|a)+(?=b)c?` nothing has to be consumed, although the loop has to be entered. -/
theorem skippable_canReachWithoutConsuming_eq_isNullable :
    ∃ pattern tree, skippablePattern? = some pattern ∧
      pattern.automaton.fullTree pattern.root = .ok tree ∧
      pattern.automaton.canReachWithoutConsuming pattern.start pattern.final =
        .ok tree.isNullable ∧ tree.isNullable = true := by
  have computed : (skippablePattern?.map fun pattern =>
      (decide pattern.automaton.LacksEndBoundaries,
        pattern.automaton.canReachWithoutConsuming pattern.start pattern.final)) =
      some (true, .ok true) := by decide +kernel
  obtain ⟨pattern, built, facts⟩ := Option.map_eq_some_iff.mp computed
  obtain ⟨lacks, answered⟩ := Prod.mk.inj facts
  have finished := finished_of_finishedPattern? built
  have lacksBelow (id : StateId) (below : pattern.automaton.Below pattern.root id) :
      pattern.automaton.allowsLineBreak id = false := by
    obtain ⟨treeNode, isTree⟩ := finished.sound.isTree.exists_tree below
    exact decide_eq_true_iff.mp lacks id
      (Automaton.mem_ids_of_tree (Automaton.tree_eq_ok_iff.mpr isTree))
  obtain ⟨tree, unfolds, same⟩ := canReachWithoutConsuming_eq_isNullable finished lacksBelow
  exact ⟨pattern, tree, built, unfolds, same, Except.ok.inj (same.symm.trans answered)⟩

end PatternGraph
