/-
This file says which nodes of a finished pattern can be reached from the start: all but those inside
a conditional and those inside a repetition that repeats nothing. Such a node is bypassed. Its
children are linked like all others, but the node itself moves to its continuation at once.

Nothing else leads into what a bypassed node encloses. With the bypassed nodes as gates the start
is outside, and a move from the outside stays there even if it is a move from a gate, since what
follows a node that is not enclosed is outside.

Conversely each other node leads to all its children. It moves to them, or into the way to its
element, or to the first item of a sequence, from where the others follow in turn because there is a
passage from each item to the next. So by induction from the root downwards every node that no
bypassed node encloses can be reached. A disjunction without alternatives would cut a sequence off,
hence the assumption that there is none.
-/

import PatternGraph.Proofs.Enclosure
import PatternGraph.Proofs.Passage

namespace PatternGraph

open Relation

/-- Whether a node moves to its continuation without entering any of its children. -/
def Node.isBypassed : Node → Bool
  | .conditional .. => true
  | .repetition _ quantifier => quantifier.minimum == 0 && quantifier.maximum == some 0
  | _ => false

namespace Pattern

/-- The node is a bypassed node below the root. -/
def Bypasses (pattern : Pattern) (id : StateId) : Prop :=
  pattern.automaton.Below pattern.root id ∧
    ∃ treeNode, pattern.automaton.tree? id = some treeNode ∧ treeNode.node.isBypassed = true

/-- The node is a child of a bypassed node, or is below such a child: it is inside the condition or
a pattern of a conditional, or inside the element of a repetition that repeats nothing. -/
def Excludes (pattern : Pattern) (id : StateId) : Prop :=
  ∃ owner child, pattern.Bypasses owner ∧ pattern.automaton.Child owner child ∧
    pattern.automaton.Below child id

end Pattern

namespace Automaton

/-- A bypassed node moves to its continuation only. -/
theorem successors_of_isBypassed {automaton : Automaton} {id next : StateId}
    {treeNode : TreeNode} (isTree : automaton.tree? id = some treeNode)
    (bypassed : treeNode.node.isBypassed = true) (stored : treeNode.continuation = some next) :
    automaton.successors id = .ok [next] := by
  cases content : treeNode.node with
  | conditional condition yes bar no =>
    exact successors_of_exit isTree stored (by rw [TreeNode.successors, content])
  | repetition element quantifier =>
    rw [content, Node.isBypassed, Bool.and_eq_true, beq_iff_eq, beq_iff_eq] at bypassed
    rw [successors_repetition isTree content stored, if_neg (by omega), if_pos bypassed.2]
  | _ =>
    rw [content] at bypassed
    cases bypassed

/-- Any other repetition may move to its element. -/
theorem moves_of_repetition {automaton : Automaton} {id next element : StateId}
    {quantifier : Quantifier} {treeNode : TreeNode}
    (isTree : automaton.tree? id = some treeNode)
    (content : treeNode.node = .repetition element quantifier)
    (entered : treeNode.node.isBypassed = false) (stored : treeNode.continuation = some next) :
    automaton.Moves id element := by
  rw [content, Node.isBypassed] at entered
  refine ⟨_, successors_repetition isTree content stored, ?_⟩
  by_cases required : 0 < quantifier.minimum
  · rw [if_pos required]
    exact List.mem_singleton_self _
  · obtain optional : quantifier.minimum = 0 := by omega
    have repeats : quantifier.maximum ≠ some 0 := by simpa [optional] using entered
    rw [if_neg required, if_neg repeats]
    split_ifs <;> simp

/-- What is chained can be reached from the first. -/
theorem reaches_of_chain {automaton : Automaton} {first : StateId} {rest : List StateId}
    (chained : ∀ link ∈ Link.chain (first :: rest), automaton.Reaches link.node link.next)
    {item : StateId} (member : item ∈ first :: rest) : automaton.Reaches first item := by
  induction rest generalizing first with
  | nil => exact List.mem_singleton.mp member ▸ .refl
  | cons second others inductionHypothesis =>
    rcases List.mem_cons.mp member with rfl | later
    · exact .refl
    · exact (chained ⟨first, second⟩ List.mem_cons_self).trans
        (inductionHypothesis (fun link inChain => chained link (List.mem_cons_of_mem _ inChain))
          later)

end Automaton

/-! ### Finished patterns -/

namespace Pattern

variable {pattern : Pattern} (finished : pattern.Finished) {id : StateId}

include finished

/-- A move from the outside of the bypassed nodes stays there. -/
theorem outside_of_moves_bypassing
    (outside : pattern.automaton.Outside pattern.Bypasses pattern.root id) {next : StateId}
    (moves : pattern.automaton.Moves id next) :
    pattern.automaton.Outside pattern.Bypasses pattern.root next := by
  have sound := finished.sound
  by_cases bypasses : pattern.Bypasses id
  -- A bypassed node is left to what follows it, and that is outside although the node is a gate.
  · obtain ⟨below, treeNode, isTree, isBypassed⟩ := bypasses
    cases outside with
    | glue isGlue _ _ => cases isTree.symm.trans isGlue
    | node unenclosed =>
      obtain ⟨after, followed⟩ := sound.followedBy_below below
      have behind := unenclosed.outside_next sound.jointed sound.followed sound.finalHeld followed
      obtain ⟨same, isTreeToo, continues⟩ := followed
      cases isTree.symm.trans isTreeToo
      obtain ⟨stored, continuation⟩ := Option.isSome_iff_exists.mp continues.isLinked
      obtain ⟨nexts, offered, member⟩ := moves
      cases offered.symm.trans
        (Automaton.successors_of_isBypassed isTree isBypassed continuation)
      obtain rfl := List.mem_singleton.mp member
      exact Automaton.outside_continuation continues behind continuation
  · exact sound.outside_of_moves outside bypasses moves

/-- Whatever can be reached from the start is outside. -/
theorem outside_bypassing (reaches : pattern.automaton.Reaches pattern.start id) :
    pattern.automaton.Outside pattern.Bypasses pattern.root id := by
  induction reaches with
  | refl => exact finished.sound.outside_start
  | tail _ moves inductionHypothesis =>
    exact outside_of_moves_bypassing finished inductionHypothesis moves

/-- What a bypassed node encloses cannot be reached. -/
theorem not_reaches_of_excludes (excludes : pattern.Excludes id) :
    ¬ pattern.automaton.Reaches pattern.start id := by
  obtain ⟨owner, child, bypasses, named, below⟩ := excludes
  intro reaches
  exact finished.sound.not_outside bypasses bypasses.1 (TransGen.head' named below)
    (outside_bypassing finished reaches)

section

variable (offers : pattern.automaton.OffersAlternatives pattern.root)

include offers

/-- The items of a sequence follow each other. -/
theorem reaches_item {parent first item : StateId} {rest : List StateId} {treeNode : TreeNode}
    (below : pattern.automaton.Below pattern.root parent)
    (isTree : pattern.automaton.tree? parent = some treeNode)
    (content : treeNode.node = .sequence (first :: rest)) (member : item ∈ first :: rest) :
    pattern.automaton.Reaches first item := by
  have joints := (finished.sound.jointed.sealedAt isTree).mono (.refl _)
    Automaton.Promised.followedBy
  rw [content, Automaton.SealedJoints] at joints
  refine Automaton.reaches_of_chain (fun link inChain => ?_) member
  have isItem : link.node ∈ first :: rest := by
    have inFront : link.node ∈ (first :: rest).dropLast :=
      Automaton.map_node_chain (first :: rest) ▸ List.mem_map_of_mem inChain
    exact List.mem_of_mem_dropLast inFront
  have named : pattern.automaton.Child parent link.node :=
    ⟨treeNode, isTree, by rwa [content, Node.children]⟩
  exact (passage_of_below finished offers (below.tail named) (joints link inChain)).reaches

/-- A node that is not bypassed leads to all its children. -/
theorem reaches_child {parent child : StateId} {treeNode : TreeNode}
    (below : pattern.automaton.Below pattern.root parent)
    (isTree : pattern.automaton.tree? parent = some treeNode)
    (entered : treeNode.node.isBypassed = false) (member : child ∈ treeNode.node.children) :
    pattern.automaton.Reaches parent child := by
  have sound := finished.sound
  obtain ⟨flags, finalHeld⟩ := sound.finalHeld
  obtain ⟨after, same, isTreeToo, continues⟩ := sound.followedBy_below below
  cases isTree.symm.trans isTreeToo
  obtain ⟨stored, continuation⟩ := Option.isSome_iff_exists.mp continues.isLinked
  have moves (nexts : List StateId) (offered : treeNode.successors = .ok nexts) {next : StateId}
      (inNexts : next ∈ nexts) : pattern.automaton.Moves parent next :=
    ⟨nexts, (Automaton.successors_of_tree? isTree).trans offered, inNexts⟩
  cases content : treeNode.node with
  | leaf leaf =>
    rw [content] at member
    cases member
  | sequence items =>
    rw [content, Node.children] at member
    cases items with
    | nil => cases member
    | cons first rest =>
      exact .head (moves [first] (by rw [TreeNode.successors, content]) (by simp))
        (reaches_item finished offers below isTree content member)
  | disjunction alternatives bars =>
    rw [content, Node.children] at member
    exact .single (moves alternatives (by rw [TreeNode.successors, content]) member)
  | capturingGroup body name number =>
    rw [content, Node.children] at member
    exact .single (moves [body.element] (by rw [TreeNode.successors, content]) member)
  | nonCapturingGroup body enabled disabled =>
    rw [content, Node.children] at member
    cases body with
    | none => cases member
    | some body =>
      exact .single (moves [body.element] (by rw [TreeNode.successors, content]) member)
  | atomicGroup body =>
    rw [content, Node.children] at member
    exact .single (moves [body.element] (by rw [TreeNode.successors, content]) member)
  | lookAround body polarity direction entry =>
    have enters := sound.jointed.enteredAt isTree
    rw [content] at enters
    rw [content, Node.children] at member
    obtain rfl := List.mem_singleton.mp member
    exact .head ⟨_, Automaton.successors_lookAround isTree content continuation, by simp⟩
      (Automaton.passage_entry finalHeld enters).reaches
  | repetition element quantifier =>
    rw [content, Node.children] at member
    obtain rfl := List.mem_singleton.mp member
    exact .single (Automaton.moves_of_repetition isTree content entered continuation)
  | conditional condition yes bar no =>
    rw [content] at entered
    cases entered

/-- What no bypassed node encloses can be reached. -/
theorem reaches_of_unenclosed
    (unenclosed : pattern.automaton.Unenclosed pattern.Bypasses pattern.root id) :
    pattern.automaton.Reaches pattern.start id := by
  induction unenclosed with
  | refl =>
    obtain ⟨flags, startHeld⟩ := finished.sound.startHeld
    exact .single ⟨_, Automaton.successors_of_own startHeld rfl, List.mem_singleton_self _⟩
  | @tail parent child before step inductionHypothesis =>
    obtain ⟨notBypassed, treeNode, isTree, member⟩ := step
    have below : pattern.automaton.Below pattern.root parent := Automaton.Unenclosed.below before
    have entered : treeNode.node.isBypassed = false :=
      Bool.eq_false_iff.mpr fun isBypassed => notBypassed ⟨below, treeNode, isTree, isBypassed⟩
    exact inductionHypothesis.trans
      (reaches_child finished offers below isTree entered member)

end

end Pattern

/-- A node below the root can be reached from the start if and only if it is neither inside a
conditional nor inside the element of a repetition that repeats nothing, provided that every
disjunction has an alternative. -/
theorem reaches_iff_not_excludes {pattern : Pattern} (finished : pattern.Finished)
    (offers : pattern.automaton.OffersAlternatives pattern.root) {id : StateId}
    (below : pattern.automaton.Below pattern.root id) :
    pattern.automaton.Reaches pattern.start id ↔ ¬ pattern.Excludes id := by
  refine ⟨fun reaches excludes => Pattern.not_reaches_of_excludes finished excludes reaches,
    fun included => ?_⟩
  refine Pattern.reaches_of_unenclosed finished offers
    (Automaton.unenclosed_of_below below fun owner bypasses inside => included ?_)
  obtain ⟨child, named, within⟩ := TransGen.head'_iff.mp inside
  exact ⟨owner, child, bypasses, named, within⟩

/-- The calls that build `(a)(?(1)b|c)d{0}e`. -/
def bypassCalls : List Call :=
  let character (beginning : Int) (codePoint : Nat) : Call :=
    .construct ⟨⟨beginning, beginning + 1⟩, .empty, .leaf (.character ⟨codePoint, false⟩)⟩
  [character 1 97, .construct ⟨⟨0, 3⟩, .empty, .capturingGroup none 1 ⟨0⟩⟩,
    .construct ⟨⟨5, 8⟩, .empty, .leaf (.referenceCondition "1")⟩, character 8 98,
    character 10 99,
    .construct ⟨⟨3, 12⟩, .empty, .conditional ⟨3⟩ ⟨4⟩ (some ⟨⟨9, 10⟩, '|', false⟩) (some ⟨5⟩)⟩,
    character 12 100,
    .construct ⟨⟨12, 16⟩, .empty,
      .repetition ⟨8⟩ ⟨⟨13, 16⟩, .greedy, .curly ⟨some ⟨⟨14, 15⟩⟩, none, none, 0, some 0⟩⟩⟩,
    character 16 101,
    .construct ⟨⟨0, 17⟩, .empty, .sequence [⟨1⟩, ⟨6⟩, ⟨9⟩, ⟨10⟩]⟩]

/-- The pattern `(a)(?(1)b|c)d{0}e`. -/
def bypassPattern? : Option Pattern :=
  finishedPattern? ⟨"(a)(?(1)b|c)d\x7b0\x7de", .java, []⟩ bypassCalls ⟨13⟩ .empty

/-- In `(a)(?(1)b|c)d{0}e` neither the first pattern of the conditional nor the element that is
repeated zero times can be reached. -/
theorem bypass_reaches_iff_not_excludes :
    ∃ pattern, bypassPattern? = some pattern ∧
      pattern.automaton.OffersAlternatives pattern.root ∧
      pattern.automaton.Below pattern.root ⟨4⟩ ∧ pattern.automaton.Below pattern.root ⟨8⟩ ∧
      ¬ pattern.automaton.Reaches pattern.start ⟨4⟩ ∧
      ¬ pattern.automaton.Reaches pattern.start ⟨8⟩ := by
  have computed : (bypassPattern?.map fun pattern =>
      (pattern.automaton.allDisjunctionsOffer,
        decide (pattern.automaton.Child pattern.root ⟨6⟩ ∧ pattern.automaton.Child ⟨6⟩ ⟨4⟩ ∧
          pattern.automaton.Child pattern.root ⟨9⟩ ∧ pattern.automaton.Child ⟨9⟩ ⟨8⟩),
        [⟨6⟩, ⟨9⟩].map fun id =>
          (pattern.automaton.tree? id).map fun treeNode => treeNode.node.isBypassed)) =
      some (true, true, [some true, some true]) := by decide +kernel
  obtain ⟨pattern, built, facts⟩ := Option.map_eq_some_iff.mp computed
  obtain ⟨offer, others⟩ := Prod.mk.inj facts
  obtain ⟨named, bypassed⟩ := Prod.mk.inj others
  obtain ⟨conditional, inConditional, repetition, inRepetition⟩ := decide_eq_true_iff.mp named
  have finished := finished_of_finishedPattern? built
  have offers := Automaton.offersAlternatives_of_allDisjunctionsOffer offer pattern.root
  have cut {owner child : StateId}
      (found : (pattern.automaton.tree? owner).map (fun treeNode => treeNode.node.isBypassed) =
        some true) (named : pattern.automaton.Child pattern.root owner)
      (inside : pattern.automaton.Child owner child) :
      pattern.automaton.Below pattern.root child ∧
        ¬ pattern.automaton.Reaches pattern.start child := by
    obtain ⟨treeNode, isTree, isBypassed⟩ := Option.map_eq_some_iff.mp found
    have below : pattern.automaton.Below pattern.root child := .tail (.single named) inside
    refine ⟨below, fun reaches => ?_⟩
    exact (reaches_iff_not_excludes finished offers below).mp reaches
      ⟨owner, child, ⟨.single named, treeNode, isTree, isBypassed⟩, inside, .refl⟩
  have both := List.cons.inj bypassed
  obtain ⟨belowPattern, apart⟩ := cut both.1 conditional inConditional
  obtain ⟨belowElement, apartToo⟩ := cut (List.cons.inj both.2).1 repetition inRepetition
  exact ⟨pattern, built, offers, belowPattern, belowElement, apart, apartToo⟩

end PatternGraph
