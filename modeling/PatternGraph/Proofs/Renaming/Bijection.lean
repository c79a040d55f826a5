/-
This file proves that the graph of a pattern does not depend on the order in which its nodes were
built. Twins are told apart by nothing but their handles, and where no node is an orphan every state
has exactly one twin. So exchanging each handle for that of its twin is a bijection that carries the
graph of one pattern over into that of the other.

Glue is entered by its kind alone, and it has the flags of its owner. The start and the final state
have the flags that the pattern was finished with.
-/

import Mathlib.Data.Set.Function
import PatternGraph.Proofs.Borrowing
import PatternGraph.Proofs.Renaming.Followers

namespace PatternGraph

/-! ### Glue -/

/-- How the automaton moves into glue of a kind. -/
def GlueKind.transition : GlueKind → Transition
  | .negation => .negation
  | .startOfLookBehind => .lookaroundBacktracking
  | _ => .epsilon

namespace Automaton

section

variable {automaton : Automaton} {id : StateId} {kind : GlueKind}

theorem transition_of_lists {owner : Option StateId} (listed : automaton.Lists kind owner id) :
    automaton.transition id = .ok kind.transition := by
  obtain ⟨state, found, isKind, -⟩ := listed.exists_state
  rw [transition_of_state? found]
  cases state <;> cases isKind <;> rfl

theorem flags_of_lists {owner : StateId} {treeNode : TreeNode}
    (listed : automaton.Lists kind (some owner) id)
    (isTree : automaton.tree? owner = some treeNode) :
    automaton.flags id = .ok treeNode.flags := by
  obtain ⟨state, found, -, owned⟩ := listed.exists_state
  exact (flags_of_owner? found owned isTree).trans (flags_of_tree? isTree)

end

end Automaton

namespace Pattern

section

variable {first second : Pattern} {id twin : StateId}

theorem Twins.mem_ids (rebuilt : first.Rebuilt second) (twins : first.Twins second id twin) :
    id ∈ first.automaton.ids := by
  rw [Automaton.mem_ids_iff]
  cases twins with
  | node counterparts =>
    obtain ⟨treeNode, other, isTree, -⟩ := rebuilt.corresponds counterparts
    exact ⟨_, Automaton.tree?_eq_some_iff.mp isTree⟩
  | glue owners listed alsoListed =>
    obtain ⟨state, found, -⟩ := listed
    exact ⟨state, found⟩

namespace Rebuilt

variable (rebuilt : first.Rebuilt second)

include rebuilt

/-- Twins are entered alike. -/
theorem transition_eq (twins : first.Twins second id twin) :
    second.automaton.transition twin = first.automaton.transition id := by
  cases twins with
  | node counterparts =>
    obtain ⟨treeNode, other, isTree, alsoTree, same, -⟩ := rebuilt.corresponds counterparts
    rw [Automaton.transition_of_state? (Automaton.tree?_eq_some_iff.mp isTree),
      Automaton.transition_of_state? (Automaton.tree?_eq_some_iff.mp alsoTree)]
    exact congrArg Except.ok same.payload.transition
  | glue owners listed alsoListed =>
    rw [Automaton.transition_of_lists listed, Automaton.transition_of_lists alsoListed]

theorem flags_frame_eq : second.automaton.flags second.start = first.automaton.flags first.start ∧
    second.automaton.flags second.final = first.automaton.flags first.final := by
  obtain ⟨flags, finalHeld, startHeld⟩ := rebuilt.finished.exists_flags
  obtain ⟨alsoFlags, alsoFinalHeld, alsoStartHeld⟩ := rebuilt.alsoFinished.exists_flags
  have atStart : second.automaton.flags second.start = first.automaton.flags first.start :=
    rebuilt.initialFlags
  refine ⟨atStart, ?_⟩
  rw [Automaton.flags_of_start startHeld, Automaton.flags_of_start alsoStartHeld] at atStart
  rw [Automaton.flags_of_final finalHeld, Automaton.flags_of_final alsoFinalHeld, atStart]

/-- Twins have the same flags. -/
theorem flags_eq (twins : first.Twins second id twin) :
    second.automaton.flags twin = first.automaton.flags id := by
  cases twins with
  | node counterparts =>
    obtain ⟨treeNode, other, isTree, alsoTree, same, -⟩ := rebuilt.corresponds counterparts
    rw [Automaton.flags_of_tree? isTree, Automaton.flags_of_tree? alsoTree, same.flags]
  | glue owners listed alsoListed =>
    cases owners with
    | some counterparts =>
      obtain ⟨treeNode, other, isTree, alsoTree, same, -⟩ := rebuilt.corresponds counterparts
      rw [Automaton.flags_of_lists listed isTree, Automaton.flags_of_lists alsoListed alsoTree,
        same.flags]
    | none =>
      rcases rebuilt.start_or_final_of_lists listed alsoListed with ⟨rfl, rfl⟩ | ⟨rfl, rfl⟩
      · exact rebuilt.flags_frame_eq.1
      · exact rebuilt.flags_frame_eq.2

end Rebuilt

end

/-! ### The renaming -/

/-- Exchanging the handles carries the graph of the first pattern over into that of the second: each
node becomes the same node with the children renamed, glue becomes glue of the same kind with the
owner renamed, and the questions that the graph answers have the same answers, renamed where they
are handles. -/
structure Renaming (first second : Pattern) (rename : StateId → StateId) : Prop where
  bijective : Set.BijOn rename {id | id ∈ first.automaton.ids} {id | id ∈ second.automaton.ids}
  root : rename first.root = second.root
  start : rename first.start = second.start
  final : rename first.final = second.final
  node {id : StateId} {treeNode : TreeNode} : first.automaton.tree? id = some treeNode →
    ∃ other, second.automaton.tree? (rename id) = some other ∧ treeNode.SameAs other ∧
      other.node.children = treeNode.node.children.map rename
  glue {id : StateId} {kind : GlueKind} {owner : Option StateId} :
    first.automaton.Lists kind owner id →
      second.automaton.Lists kind (owner.map rename) (rename id)
  continuation {id : StateId} : id ∈ first.automaton.ids →
    ∃ next, first.automaton.continuation id = .ok next ∧
      second.automaton.continuation (rename id) = .ok (next.map rename)
  successors {id : StateId} : id ∈ first.automaton.ids →
    ∃ nexts, first.automaton.successors id = .ok nexts ∧
      second.automaton.successors (rename id) = .ok (nexts.map rename)
  transition {id : StateId} : id ∈ first.automaton.ids →
    second.automaton.transition (rename id) = first.automaton.transition id
  flags {id : StateId} : id ∈ first.automaton.ids →
    second.automaton.flags (rename id) = first.automaton.flags id

section

variable {first second : Pattern}

/-- A function that gives each state its twin is a renaming. -/
theorem Rebuilt.renaming (rebuilt : first.Rebuilt second) (alsoLacks : second.LacksOrphans)
    {rename : StateId → StateId}
    (gives : ∀ id ∈ first.automaton.ids, first.Twins second id (rename id)) :
    first.Renaming second rename := by
  have rename_eq {id twin : StateId} (twins : first.Twins second id twin) : rename id = twin :=
    rebuilt.twins_unique (gives id (twins.mem_ids rebuilt)) twins
  have rename_owner {owner other : Option StateId}
      (twins : Option.Rel (first.Twins second) owner other) : other = owner.map rename := by
    cases twins with
    | none => rfl
    | some twins => exact congrArg some (rename_eq twins).symm
  have rename_each {ids others : List StateId}
      (twins : List.Forall₂ (first.Twins second) ids others) : others = ids.map rename := by
    induction twins with
    | nil => rfl
    | cons twins _ inductionHypothesis =>
      rw [List.map_cons, rename_eq twins, ← inductionHypothesis]
  constructor
  case bijective =>
    refine ⟨fun id member => (gives id member).symm.mem_ids rebuilt.symm, ?_, ?_⟩
    · intro id member other alsoMember same
      have twins := (gives id member).symm
      rw [same] at twins
      exact rebuilt.symm.twins_unique twins (gives other alsoMember).symm
    · intro twin member
      obtain ⟨state, found⟩ := Automaton.mem_ids_iff.mp member
      obtain ⟨id, twins⟩ := rebuilt.symm.exists_twin alsoLacks found
      exact ⟨id, twins.symm.mem_ids rebuilt, rename_eq twins.symm⟩
  case root => exact rename_eq (.node .root)
  case start => exact rename_eq rebuilt.twins_start
  case final => exact rename_eq rebuilt.twins_final
  case node =>
    intro id treeNode isTree
    have member := Automaton.mem_ids_iff.mpr ⟨_, Automaton.tree?_eq_some_iff.mp isTree⟩
    have counterparts := (gives id member).counterparts_of_tree? isTree
    obtain ⟨same, other, _, _, matched⟩ := rebuilt.exists_matches counterparts
    cases isTree.symm.trans matched.isTree
    exact ⟨other, matched.alsoTree, matched.same,
      rename_each (matched.children.imp fun _ _ counterparts => .node counterparts)⟩
  case glue =>
    intro id kind owner listed
    have member := Automaton.mem_ids_iff.mpr ⟨_, listed.choose_spec.1⟩
    obtain ⟨other, owners, alsoListed⟩ := rebuilt.owners_of_lists (gives id member) listed
    have renamed : other = owner.map rename := by
      refine rename_owner ?_
      cases owners with
      | none => exact .none
      | some counterparts => exact .some (.node counterparts)
    exact renamed ▸ alsoListed
  case continuation =>
    intro id member
    obtain ⟨next, other, continues, alsoContinues, twins⟩ :=
      (rebuilt.leadAlike (gives id member)).continuation
    rw [rename_owner twins] at alsoContinues
    exact ⟨next, continues, alsoContinues⟩
  case successors =>
    intro id member
    obtain ⟨nexts, others, moves, alsoMoves, twins⟩ :=
      (rebuilt.leadAlike (gives id member)).successors
    rw [rename_each twins] at alsoMoves
    exact ⟨nexts, moves, alsoMoves⟩
  case transition => exact fun member => rebuilt.transition_eq (gives _ member)
  case flags => exact fun member => rebuilt.flags_eq (gives _ member)

/-- Two patterns in which the same tree was built, and which were finished with the same flags, have
the same graph apart from the handles, whatever the order in which the nodes were built. -/
theorem exists_renaming (finished : first.Finished) (alsoFinished : second.Finished)
    (same : first.SameTree second) (lacks : first.LacksOrphans) (alsoLacks : second.LacksOrphans)
    (initialFlags : second.initialFlags = first.initialFlags) :
    ∃ rename, first.Renaming second rename := by
  have rebuilt : first.Rebuilt second :=
    ⟨finished, alsoFinished, same.corresponds, initialFlags⟩
  have exists_twin (id : StateId) (member : id ∈ first.automaton.ids) :
      ∃ twin, first.Twins second id twin := by
    obtain ⟨state, found⟩ := Automaton.mem_ids_iff.mp member
    exact rebuilt.exists_twin lacks found
  choose! rename gives using exists_twin
  exact ⟨rename, rebuilt.renaming alsoLacks gives⟩

end

/-! ### Two orders for one tree -/

/-- The pair names the same node twice, and the children are paired in their order. -/
def PairsAt (first second : Pattern) (pairs : List (StateId × StateId))
    (pair : StateId × StateId) : Prop :=
  ∃ treeNode ∈ first.automaton.tree? pair.1, ∃ other ∈ second.automaton.tree? pair.2,
    treeNode.SameAs other ∧
      List.Forall₂ (fun child twin => (child, twin) ∈ pairs) treeNode.node.children
        other.node.children

instance (first second : Pattern) (pairs : List (StateId × StateId)) (pair : StateId × StateId) :
    Decidable (first.PairsAt second pairs pair) :=
  inferInstanceAs (Decidable (∃ _ ∈ _, ∃ _ ∈ _, _ ∧ _))

/-- A pairing can be given as a list of pairs. -/
theorem sameTree_of_pairsAt {first second : Pattern} {pairs : List (StateId × StateId)}
    (root : (first.root, second.root) ∈ pairs)
    (each : ∀ pair ∈ pairs, first.PairsAt second pairs pair) : first.SameTree second := by
  refine ⟨fun id twin => (id, twin) ∈ pairs, root, fun paired => ?_⟩
  obtain ⟨treeNode, isTree, other, alsoTree, same, children⟩ := each _ paired
  exact ⟨treeNode, other, isTree, alsoTree, same, children⟩

/-- Every node but the root has a parent with a later handle. -/
def HasParents (pattern : Pattern) : Prop :=
  ∀ id ∈ pattern.automaton.ids, (pattern.automaton.tree? id).isSome → id = pattern.root ∨
    ∃ parent ∈ pattern.automaton.ids, id.index < parent.index ∧ pattern.automaton.Child parent id

instance (pattern : Pattern) : Decidable pattern.HasParents :=
  inferInstanceAs (Decidable (∀ _ ∈ _, _ → _ ∨ ∃ _ ∈ _, _))

/-- Where children are built before their parents, no node is an orphan if the root is the only node
without a parent. -/
theorem HasParents.lacksOrphans {pattern : Pattern} (parents : pattern.HasParents) :
    pattern.LacksOrphans := by
  intro id treeNode isTree
  -- The parents of a node have ever later handles, of which there are finitely many.
  induction gap : pattern.automaton.size - id.index using Nat.strong_induction_on
    generalizing id treeNode with
  | _ gap inductionHypothesis =>
    have found := Automaton.tree?_eq_some_iff.mp isTree
    rcases parents id (Automaton.mem_ids_iff.mpr ⟨_, found⟩) (by simp [isTree]) with
      rfl | ⟨parent, -, later, named⟩
    · exact .refl
    · have isParent := named.choose_spec.1
      have small := Automaton.lt_size_of_state? found
      exact (inductionHypothesis _ (by omega) isParent rfl).tail named

/-- The calls that build `a(b|c)*d` from its end. -/
def loopCallsFromEnd : List Call :=
  let character (beginning : Int) (codePoint : Nat) : Call :=
    .construct ⟨⟨beginning, beginning + 1⟩, .empty, .leaf (.character ⟨codePoint, false⟩)⟩
  [character 7 100, character 4 99, character 2 98,
    .construct ⟨⟨2, 5⟩, .empty, .disjunction [⟨2⟩, ⟨1⟩] []⟩,
    .construct ⟨⟨1, 6⟩, .empty, .capturingGroup none 1 ⟨3⟩⟩,
    .construct ⟨⟨1, 7⟩, .empty, .repetition ⟨4⟩ ⟨⟨6, 7⟩, .greedy, .sign .star⟩⟩,
    character 0 97,
    .construct ⟨⟨0, 8⟩, .empty, .sequence [⟨7⟩, ⟨6⟩, ⟨0⟩]⟩]

/-- The nodes of `a(b|c)*d` as the two runs number them. -/
def loopPairs : List (StateId × StateId) :=
  [(⟨0⟩, ⟨7⟩), (⟨1⟩, ⟨2⟩), (⟨2⟩, ⟨1⟩), (⟨3⟩, ⟨3⟩), (⟨4⟩, ⟨4⟩), (⟨6⟩, ⟨6⟩), (⟨7⟩, ⟨0⟩), (⟨9⟩, ⟨9⟩)]

theorem loop_exists_renaming :
    ∃ first second, loopPattern? = some first ∧
      finishedPattern? loopSource loopCallsFromEnd ⟨9⟩ .empty = some second ∧
      first.SameTree second ∧ first.LacksOrphans ∧ second.LacksOrphans ∧
      second.initialFlags = first.initialFlags ∧ ∃ rename, first.Renaming second rename := by
  have computed : (loopPattern?.bind fun first =>
      (finishedPattern? loopSource loopCallsFromEnd ⟨9⟩ .empty).map fun second => decide
        ((first.root, second.root) ∈ loopPairs ∧
          (∀ pair ∈ loopPairs, first.PairsAt second loopPairs pair) ∧
          first.HasParents ∧ second.HasParents ∧
          second.initialFlags = first.initialFlags)) = some true := by
    decide +kernel
  obtain ⟨first, built, rest⟩ := Option.bind_eq_some_iff.mp computed
  obtain ⟨second, alsoBuilt, checked⟩ := Option.map_eq_some_iff.mp rest
  obtain ⟨root, each, parents, alsoParents, initialFlags⟩ := of_decide_eq_true checked
  have same := sameTree_of_pairsAt root each
  exact ⟨first, second, built, alsoBuilt, same, parents.lacksOrphans, alsoParents.lacksOrphans,
    initialFlags, exists_renaming (finished_of_finishedPattern? built)
      (finished_of_finishedPattern? alsoBuilt) same parents.lacksOrphans alsoParents.lacksOrphans
      initialFlags⟩

end Pattern

end PatternGraph
